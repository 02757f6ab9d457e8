import Srui.Basic.Runs
import Srui.Basic.Totals
import Srui.EventDedupe.Deduplicators
import Srui.SemanticTree.Events

/-!
The table of editor streams: for each client and node the watermark of edit
sequences, the edits whose policy is still running and the generation of the
newest reservation, with one counter for all streams.

A call that panics keeps what it has written, so the calls that can panic return
the tracker they leave behind together with the panic.
-/

namespace Srui.Sessiond.TextEditTrackers

open Std Basic.Machine Basic.FiniteMaps Basic.Runs Basic.Totals EventDedupe.Windows
open EventDedupe.Deduplicators SemanticTree.Values SemanticTree.Stores SemanticTree.Events

structure EditorStream where
  lastTerminalEditSeq : Nat
  inFlightEditSeqs : Finset Nat
  generation : Nat
deriving DecidableEq

structure CommittedHandlerTextEdit where
  nodeId : NodeId
  editSeq : Nat
deriving DecidableEq, Repr

structure ClientTextEditState where
  editorStreams : ExtTreeMap NodeId EditorStream
  committedHandlerEdits : ExtTreeMap Nat CommittedHandlerTextEdit
deriving DecidableEq

structure TextEditTracker where
  streams : ExtTreeMap Bytes ClientTextEditState
  streamCount : Nat
  maxStreams : Nat
deriving DecidableEq

/-- The places where the tracker can panic: the `expect` on the client, the debug
assertion on the event sequence, and a subtraction from the counter. -/
inductive TrackerPanic where
  | missingClient
  | reusedEventSeq
  | countUnderflow
deriving DecidableEq, Repr

/-- `TextEditTracker::new`. -/
def TextEditTracker.new (maxStreams : Nat) : TextEditTracker where
  streams := ∅
  streamCount := 0
  maxStreams := max maxStreams 1

/-- `TextEditTracker::is_at_capacity`. -/
def isAtCapacity (tracker : TextEditTracker) : Bool := decide (tracker.maxStreams ≤ tracker.streamCount)

def clientState (tracker : TextEditTracker) (client : Bytes) : ClientTextEditState :=
  tracker.streams[client]?.getD ⟨∅, ∅⟩

def streamOf (tracker : TextEditTracker) (client : Bytes) (node : NodeId) : Option EditorStream :=
  tracker.streams[client]?.bind fun state => state.editorStreams[node]?

/-- `TextEditTracker::generation_of`. -/
def generationOf (tracker : TextEditTracker) (client : Bytes) (node : NodeId) : Option Nat :=
  (streamOf tracker client node).map EditorStream.generation

def putStream (tracker : TextEditTracker) (client : Bytes) (node : NodeId)
    (stream : EditorStream) : TextEditTracker :=
  let state := clientState tracker client
  let written := { state with editorStreams := state.editorStreams.insert node stream }
  { tracker with streams := tracker.streams.insert client written }

def watermark (stream : EditorStream) : Nat :=
  max (if stream.inFlightEditSeqs = ∅ then stream.lastTerminalEditSeq
    else stream.inFlightEditSeqs.sup id) stream.lastTerminalEditSeq

/-- `TextEditTracker::reserve`. -/
def reserve (tracker : TextEditTracker) (client : Bytes) (node : NodeId)
    (editSeq : EditSeq) : TextEditTracker × Except EventValidationError Nat :=
  match streamOf tracker client node with
  | some stream =>
    if editSeq.get ≤ watermark stream then
      (tracker, .error (.staleEditSeq editSeq.get (watermark stream)))
    else
      match checkedAdd stream.generation 1 with
      | none => (tracker, .error .generationOverflow)
      | some generation =>
        (putStream tracker client node
          { stream with
            generation := generation
            inFlightEditSeqs := insert editSeq.get stream.inFlightEditSeqs }, .ok generation)
  | none =>
    if tracker.maxStreams ≤ tracker.streamCount then
      (tracker, .error (.textTrackerFull tracker.maxStreams))
    else
      ({ putStream tracker client node ⟨0, {editSeq.get}, 1⟩ with
          streamCount := tracker.streamCount + 1 }, .ok 1)

def onStream (tracker : TextEditTracker) (client : Bytes) (node : NodeId)
    (change : EditorStream → EditorStream) : TextEditTracker :=
  match streamOf tracker client node with
  | some stream => putStream tracker client node (change stream)
  | none => tracker

/-- `TextEditTracker::mark_terminal`. -/
def markTerminal (tracker : TextEditTracker) (client : Bytes) (node : NodeId)
    (editSeq : EditSeq) : TextEditTracker :=
  onStream tracker client node fun stream =>
    { stream with
      inFlightEditSeqs := stream.inFlightEditSeqs.erase editSeq.get
      lastTerminalEditSeq := max stream.lastTerminalEditSeq editSeq.get }

/-- `TextEditTracker::abandon_reservation`. -/
def abandonReservation (tracker : TextEditTracker) (client : Bytes) (node : NodeId)
    (editSeq : EditSeq) : TextEditTracker :=
  onStream tracker client node fun stream =>
    { stream with inFlightEditSeqs := stream.inFlightEditSeqs.erase editSeq.get }

/-- `TextEditTracker::begin_committed_handler_dispatch`. -/
def beginCommittedHandlerDispatch (tracker : TextEditTracker) (client : Bytes) (eventSeq : Nat)
    (edit : CommittedHandlerTextEdit) : TextEditTracker × Except TrackerPanic Unit :=
  match tracker.streams[client]? with
  | none => (tracker, .error .missingClient)
  | some state =>
    let begun := { state with
      committedHandlerEdits := state.committedHandlerEdits.insert eventSeq edit }
    ({ tracker with streams := tracker.streams.insert client begun },
      if state.committedHandlerEdits.contains eventSeq then .error .reusedEventSeq else .ok ())

def isBare (state : ClientTextEditState) : Bool :=
  state.editorStreams.isEmpty && state.committedHandlerEdits.isEmpty

/-- `TextEditTracker::finish_committed_handler_dispatch`. -/
def finishCommittedHandlerDispatch (tracker : TextEditTracker) (client : Bytes) (eventSeq : Nat) :
    TextEditTracker :=
  match tracker.streams[client]? with
  | none => tracker
  | some state =>
    let finished := { state with
      committedHandlerEdits := state.committedHandlerEdits.erase eventSeq }
    if isBare finished then { tracker with streams := tracker.streams.erase client }
    else { tracker with streams := tracker.streams.insert client finished }

def streamsIn (state : ClientTextEditState) : Nat := state.editorStreams.size

/-- What the reclaiming calls share: a pass over the clients that rewrites or drops
each of them, and the streams that are gone afterwards taken off the counter. -/
def reclaim (tracker : TextEditTracker)
    (keep : Bytes → ClientTextEditState → Option ClientTextEditState) :
    TextEditTracker × Except TrackerPanic Unit :=
  let removed := (tracker.streams.toList.map fun entry =>
    streamsIn entry.2 - weight streamsIn (keep entry.1 entry.2)).sum
  let streams := tracker.streams.filterMap keep
  if removed ≤ tracker.streamCount then
    ({ tracker with streams := streams, streamCount := tracker.streamCount - removed }, .ok ())
  else ({ tracker with streams := streams }, .error .countUnderflow)

def keepStreams (p : NodeId → Bool) (state : ClientTextEditState) : Option ClientTextEditState :=
  let kept := { state with editorStreams := state.editorStreams.filter fun node _ => p node }
  if isBare kept then none else some kept

/-- `TextEditTracker::reclaim_node`. -/
def reclaimNode (tracker : TextEditTracker) (node : NodeId) :
    TextEditTracker × Except TrackerPanic Unit :=
  reclaim tracker fun _ => keepStreams fun other => decide (other ≠ node)

/-- `TextEditTracker::reclaim_nodes`. -/
def reclaimNodes (tracker : TextEditTracker) (doomed : Finset NodeId) :
    TextEditTracker × Except TrackerPanic Unit :=
  if doomed = ∅ then (tracker, .ok ())
  else reclaim tracker fun _ => keepStreams fun node => decide (node ∉ doomed)

/-- `TextEditTracker::reclaim_missing_nodes`. -/
def reclaimMissingNodes (tracker : TextEditTracker) (store : SemanticStore) :
    TextEditTracker × Except TrackerPanic Unit :=
  reclaim tracker fun _ => keepStreams fun node => store.nodes.contains node

def hasPinned (state : ClientTextEditState) : Bool :=
  !state.committedHandlerEdits.isEmpty ||
    state.editorStreams.toList.any fun entry => decide (entry.2.inFlightEditSeqs ≠ ∅)

/-- `EventDeduplicator::has_client_window` or a frontier other than zero. -/
def hasEventSequenceHistory (dedupe : EventDeduplicator) (client : Bytes) : Bool :=
  dedupe.clients.contains client || decide (lastContiguousProcessedSeq dedupe client ≠ 0)

/-- `TextEditTracker::reclaim_departed_clients`. -/
def reclaimDepartedClients (tracker : TextEditTracker) (dedupe : EventDeduplicator) :
    TextEditTracker × Except TrackerPanic Unit :=
  reclaim tracker fun client state =>
    if hasEventSequenceHistory dedupe client || hasPinned state then some state else none

variable {tracker : TextEditTracker}

theorem clientState_stream (tracker : TextEditTracker) (client : Bytes) (node : NodeId) :
    (clientState tracker client).editorStreams[node]? = streamOf tracker client node := by
  rw [clientState, streamOf]
  cases tracker.streams[client]? with
  | none => simp
  | some state => rfl

theorem putStream_lookup (tracker : TextEditTracker) (client : Bytes) (node : NodeId)
    (stream : EditorStream) (other : Bytes) :
    (putStream tracker client node stream).streams[other]? =
      if client = other then
        some { clientState tracker client with
          editorStreams := (clientState tracker client).editorStreams.insert node stream }
      else tracker.streams[other]? := getElem?_put _ _ _ _

theorem streamOf_putStream (tracker : TextEditTracker) (client : Bytes) (node : NodeId)
    (stream : EditorStream) (c : Bytes) (n : NodeId) :
    streamOf (putStream tracker client node stream) c n =
      if client = c ∧ node = n then some stream else streamOf tracker c n := by
  rw [streamOf, putStream_lookup]
  split
  · rename_i hclient
    subst hclient
    rw [Option.bind_some, getElem?_put, clientState_stream]
    simp only [true_and]
  · rename_i hclient
    rw [if_neg fun hboth => hclient hboth.1, streamOf]

theorem total_putStream (tracker : TextEditTracker) (client : Bytes) (node : NodeId)
    (stream : EditorStream) :
    total streamsIn (putStream tracker client node stream).streams =
      total streamsIn tracker.streams +
        if (streamOf tracker client node).isSome then 0 else 1 := by
  have hothers : ∀ other, other ≠ client →
      (putStream tracker client node stream).streams[other]? = tracker.streams[other]? := by
    intro other hother
    rw [putStream_lookup, if_neg (Ne.symm hother)]
  have hchange := total_change streamsIn client hothers
  have hbefore : weight streamsIn tracker.streams[client]? =
      (clientState tracker client).editorStreams.size := by
    rw [clientState]
    cases tracker.streams[client]? with
    | none => simp
    | some state => rfl
  rw [putStream_lookup, if_pos rfl, weight_some, hbefore] at hchange
  change _ = _ + ((clientState tracker client).editorStreams.insert node stream).size at hchange
  cases hstream : streamOf tracker client node with
  | none =>
    rw [← clientState_stream] at hstream
    rw [size_insert_of_fresh stream hstream] at hchange
    simp only [Option.isSome_none, Bool.false_eq_true, if_false]
    omega
  | some old =>
    rw [← clientState_stream] at hstream
    rw [size_insert_of_present stream hstream] at hchange
    simp only [Option.isSome_some, if_true]
    omega

/-- The counter counts all streams and keeps its bound, and no client is kept for
nothing. -/
structure Accounted (tracker : TextEditTracker) : Prop where
  count : tracker.streamCount = total streamsIn tracker.streams
  bounded : tracker.streamCount ≤ tracker.maxStreams
  inhabited : ∀ (client : Bytes) (state : ClientTextEditState),
    tracker.streams[client]? = some state → isBare state = false

theorem new_accounted (maxStreams : Nat) : Accounted (TextEditTracker.new maxStreams) := by
  refine ⟨rfl, Nat.zero_le _, ?_⟩
  intro client state hstate
  simp [TextEditTracker.new] at hstate

theorem isBare_insert (state : ClientTextEditState) (node : NodeId) (stream : EditorStream) :
    isBare { state with editorStreams := state.editorStreams.insert node stream } = false := by
  simp [isBare]

theorem putStream_inhabited (h : Accounted tracker) (client : Bytes) (node : NodeId)
    (stream : EditorStream) : ∀ (other : Bytes) (state : ClientTextEditState),
      (putStream tracker client node stream).streams[other]? = some state →
        isBare state = false := by
  intro other state hstate
  rw [putStream_lookup] at hstate
  split at hstate
  · rw [← Option.some.inj hstate]
    exact isBare_insert _ _ _
  · exact h.inhabited other state hstate

variable {node n : NodeId} {client : Bytes}

section

variable (h : Accounted tracker)

include h

theorem putStream_accounted {old : EditorStream} (hold : streamOf tracker client node = some old)
    (stream : EditorStream) :
    Accounted (putStream tracker client node stream) := by
  refine ⟨?_, h.bounded, putStream_inhabited h client node stream⟩
  rw [total_putStream, hold]
  exact h.count

theorem onStream_accounted (client : Bytes) (node : NodeId) (change : EditorStream → EditorStream) :
    Accounted (onStream tracker client node change) := by
  rw [onStream]
  split
  · rename_i stream hstream
    exact putStream_accounted h hstream _
  · exact h

theorem reserve_accounted (client : Bytes) (node : NodeId) (editSeq : EditSeq) :
    Accounted (reserve tracker client node editSeq).1 := by
  rw [reserve]
  split
  · rename_i stream hstream
    split
    · exact h
    split
    · exact h
    · exact putStream_accounted h hstream _
  · rename_i hnone
    split
    · exact h
    · rename_i hroom
      refine ⟨?_, Nat.lt_of_not_le hroom, putStream_inhabited h client node _⟩
      change tracker.streamCount + 1 = _
      rw [total_putStream, hnone, h.count]
      rfl

theorem insert_accounted {state next : ClientTextEditState}
    (hstate : tracker.streams[client]? = some state) (hstreams : streamsIn next = streamsIn state)
    (hnext : isBare next = false) :
    Accounted { tracker with streams := tracker.streams.insert client next } := by
  have hothers : ∀ other, other ≠ client →
      (tracker.streams.insert client next)[other]? = tracker.streams[other]? := by
    intro other hother
    rw [getElem?_put, if_neg (Ne.symm hother)]
  have hchange := total_change streamsIn client hothers
  rw [getElem?_put, if_pos rfl, hstate, weight_some, weight_some] at hchange
  refine ⟨?_, h.bounded, ?_⟩
  · change tracker.streamCount = total streamsIn (tracker.streams.insert client next)
    rw [h.count]
    omega
  · intro other other' hother
    change (tracker.streams.insert client next)[other]? = some other' at hother
    rw [getElem?_put] at hother
    split at hother
    · rw [← Option.some.inj hother]
      exact hnext
    · exact h.inhabited other other' hother

theorem begin_accounted (client : Bytes) (eventSeq : Nat) (edit : CommittedHandlerTextEdit) :
    Accounted (beginCommittedHandlerDispatch tracker client eventSeq edit).1 := by
  rw [beginCommittedHandlerDispatch]
  split
  · exact h
  · rename_i state hstate
    exact insert_accounted h hstate rfl (by simp [isBare])

theorem finish_accounted (client : Bytes) (eventSeq : Nat) :
    Accounted (finishCommittedHandlerDispatch tracker client eventSeq) := by
  rw [finishCommittedHandlerDispatch]
  split
  · exact h
  rename_i state hstate
  simp only
  split
  · rename_i hbare
    have hothers : ∀ other, other ≠ client →
        (tracker.streams.erase client)[other]? = tracker.streams[other]? := by
      intro other hother
      rw [getElem?_drop, if_neg (Ne.symm hother)]
    have hchange := total_change streamsIn client hothers
    have hnone : streamsIn state = 0 := by
      have hempty : state.editorStreams.isEmpty = true := by
        rw [isBare, Bool.and_eq_true] at hbare
        exact hbare.1
      rw [streamsIn, ExtTreeMap.isEmpty_iff.mp hempty]
      rfl
    rw [getElem?_drop, if_pos rfl, hstate, weight_some, weight_none, hnone] at hchange
    refine ⟨h.count.trans hchange.symm, h.bounded, ?_⟩
    intro other other' hother
    change (tracker.streams.erase client)[other]? = some other' at hother
    rw [getElem?_drop] at hother
    split at hother
    · simp at hother
    · exact h.inhabited other other' hother
  · rename_i hbare
    exact insert_accounted h hstate rfl (by simpa using hbare)

theorem reclaim_accounted {keep : Bytes → ClientTextEditState → Option ClientTextEditState}
    (hshrinks : ∀ client state, weight streamsIn (keep client state) ≤ streamsIn state)
    (hkept : ∀ (client : Bytes) (state kept : ClientTextEditState),
      tracker.streams[client]? = some state → keep client state = some kept → isBare kept = false) :
    Accounted (reclaim tracker keep).1 ∧ (reclaim tracker keep).2 = .ok () := by
  have htotal := total_filterMap streamsIn tracker.streams hshrinks
  have hcount := h.count
  have hbounded := h.bounded
  rw [reclaim, if_pos (by omega)]
  refine ⟨⟨?_, ?_, ?_⟩, rfl⟩
  · change tracker.streamCount - _ = total streamsIn (tracker.streams.filterMap keep)
    omega
  · change tracker.streamCount - _ ≤ tracker.maxStreams
    omega
  · intro client state hstate
    change (tracker.streams.filterMap keep)[client]? = some state at hstate
    rw [ExtTreeMap.getElem?_filterMap', Option.bind_eq_some_iff] at hstate
    obtain ⟨before, hbefore, hkeep⟩ := hstate
    exact hkept client before state hbefore hkeep

end

theorem keepStreams_shrinks (p : NodeId → Bool) (state : ClientTextEditState) :
    weight streamsIn (keepStreams p state) ≤ streamsIn state := by
  rw [keepStreams]
  split
  · exact Nat.zero_le _
  · exact ExtTreeMap.size_filter_le_size

theorem keepStreams_inhabited {p : NodeId → Bool} {state kept : ClientTextEditState}
    (h : keepStreams p state = some kept) : isBare kept = false := by
  rw [keepStreams] at h
  split at h
  · simp at h
  · rename_i hbare
    rw [← Option.some.inj h]
    simpa using hbare

theorem reclaim_keepStreams (h : Accounted tracker) (p : NodeId → Bool) :
    Accounted (reclaim tracker fun _ => keepStreams p).1 ∧
      (reclaim tracker fun _ => keepStreams p).2 = .ok () :=
  reclaim_accounted h (fun _ => keepStreams_shrinks p) (fun _ _ _ _ => keepStreams_inhabited)

theorem reclaimDepartedClients_accounted (h : Accounted tracker) (dedupe : EventDeduplicator) :
    Accounted (reclaimDepartedClients tracker dedupe).1 ∧
      (reclaimDepartedClients tracker dedupe).2 = .ok () := by
  refine reclaim_accounted h ?_ ?_
  · intro client state
    split
    · exact Nat.le_refl _
    · exact Nat.zero_le _
  · intro client state kept hstate hkeep
    split at hkeep
    · rw [← Option.some.inj hkeep]
      exact h.inhabited client state hstate
    · simp at hkeep

theorem reclaimNodes_accounted (h : Accounted tracker) (doomed : Finset NodeId) :
    Accounted (reclaimNodes tracker doomed).1 ∧ (reclaimNodes tracker doomed).2 = .ok () := by
  rw [reclaimNodes]
  split
  · exact ⟨h, rfl⟩
  · exact reclaim_keepStreams h _

/-- Every stream there is was there before, with the same generation and watermark and
with no new edits in flight. -/
def Released (tracker tracker' : TextEditTracker) : Prop :=
  ∀ client node stream', streamOf tracker' client node = some stream' →
    ∃ stream, streamOf tracker client node = some stream ∧
      stream'.generation = stream.generation ∧
      stream'.lastTerminalEditSeq = stream.lastTerminalEditSeq ∧
      stream'.inFlightEditSeqs ⊆ stream.inFlightEditSeqs

variable {tracker' : TextEditTracker}

theorem Released.of_eq
    (h : ∀ client node, streamOf tracker' client node = streamOf tracker client node) :
    Released tracker tracker' := by
  intro client node stream hstream
  exact ⟨stream, h client node ▸ hstream, rfl, rfl, Finset.Subset.refl _⟩

theorem streamOf_onStream (tracker : TextEditTracker) (client : Bytes) (node : NodeId)
    (change : EditorStream → EditorStream) (c : Bytes) (n : NodeId) :
    streamOf (onStream tracker client node change) c n =
      if client = c ∧ node = n then (streamOf tracker c n).map change else streamOf tracker c n := by
  rw [onStream]
  split
  · rename_i stream hstream
    rw [streamOf_putStream]
    split
    · rename_i hsame
      rw [← hsame.1, ← hsame.2, hstream, Option.map_some]
    · rfl
  · rename_i hnone
    split
    · rename_i hsame
      rw [← hsame.1, ← hsame.2, hnone, Option.map_none]
    · rfl

theorem abandonReservation_released (tracker : TextEditTracker) (client : Bytes) (node : NodeId)
    (editSeq : EditSeq) : Released tracker (abandonReservation tracker client node editSeq) := by
  intro c n stream' hstream'
  rw [abandonReservation, streamOf_onStream] at hstream'
  split at hstream'
  · obtain ⟨stream, hstream, rfl⟩ := Option.map_eq_some_iff.mp hstream'
    exact ⟨stream, hstream, rfl, rfl, Finset.erase_subset _ _⟩
  · exact ⟨stream', hstream', rfl, rfl, Finset.Subset.refl _⟩

theorem streamOf_insert {state : ClientTextEditState}
    (hstate : tracker.streams[client]? = some state)
    (edits : ExtTreeMap Nat CommittedHandlerTextEdit) (c : Bytes) (n : NodeId) :
    streamOf { tracker with
        streams := tracker.streams.insert client ⟨state.editorStreams, edits⟩ } c n =
      streamOf tracker c n := by
  rw [streamOf, streamOf, getElem?_put]
  split
  · rename_i hsame
    rw [← hsame, hstate, Option.bind_some, Option.bind_some]
  · rfl

section

variable (tracker : TextEditTracker)

theorem streamOf_begin (client : Bytes) (eventSeq : Nat) (edit : CommittedHandlerTextEdit)
    (c : Bytes) (n : NodeId) :
    streamOf (beginCommittedHandlerDispatch tracker client eventSeq edit).1 c n =
      streamOf tracker c n := by
  rw [beginCommittedHandlerDispatch]
  split
  · rfl
  · rename_i state hstate
    exact streamOf_insert hstate _ c n

theorem streamOf_finish (client : Bytes) (eventSeq : Nat) (c : Bytes) (n : NodeId) :
    streamOf (finishCommittedHandlerDispatch tracker client eventSeq) c n =
      streamOf tracker c n := by
  rw [finishCommittedHandlerDispatch]
  split
  · rfl
  rename_i state hstate
  simp only
  split
  · rename_i hbare
    rw [streamOf, streamOf, getElem?_drop]
    split
    · rename_i hsame
      rw [isBare, Bool.and_eq_true] at hbare
      rw [← hsame, hstate, Option.bind_none, Option.bind_some, ExtTreeMap.isEmpty_iff.mp hbare.1]
      simp
    · rfl
  · exact streamOf_insert hstate _ c n


theorem reclaim_streams (keep : Bytes → ClientTextEditState → Option ClientTextEditState) :
    (reclaim tracker keep).1.streams = tracker.streams.filterMap keep := by
  rw [reclaim]
  split
  · rfl
  · rfl

theorem streamOf_reclaim (keep : Bytes → ClientTextEditState → Option ClientTextEditState)
    (c : Bytes) (n : NodeId) :
    streamOf (reclaim tracker keep).1 c n =
      tracker.streams[c]?.bind fun state =>
        (keep c state).bind fun kept => kept.editorStreams[n]? := by
  rw [streamOf, reclaim_streams, ExtTreeMap.getElem?_filterMap', Option.bind_assoc]

theorem streamOf_reclaimMissing {store : SemanticStore} (hlive : store.nodes.contains n = true)
    (c : Bytes) :
    streamOf (reclaimMissingNodes tracker store).1 c n = streamOf tracker c n := by
  rw [reclaimMissingNodes, streamOf_reclaim, streamOf]
  refine Option.bind_congr fun state _ => ?_
  have hfiltered : (state.editorStreams.filter fun node _ => store.nodes.contains node)[n]? =
      state.editorStreams[n]? := by
    ext stream
    rw [getElem?_select]
    exact and_iff_left hlive
  rw [keepStreams]
  split
  · rename_i hbare
    rw [isBare, Bool.and_eq_true, ExtTreeMap.isEmpty_iff] at hbare
    have hempty : (state.editorStreams.filter fun node _ => store.nodes.contains node) = ∅ :=
      hbare.1
    rw [← hfiltered, Option.bind_none, hempty]
    simp
  · rw [Option.bind_some]
    exact hfiltered

theorem streamOf_reclaimDeparted (dedupe : EventDeduplicator) (c : Bytes) (n : NodeId) :
    streamOf (reclaimDepartedClients tracker dedupe).1 c n = streamOf tracker c n ∨
      hasEventSequenceHistory dedupe c = false ∧
        ∀ stream, streamOf tracker c n = some stream → stream.inFlightEditSeqs = ∅ := by
  rw [reclaimDepartedClients, streamOf_reclaim, streamOf]
  cases hstate : tracker.streams[c]? with
  | none => exact .inl rfl
  | some state =>
    rw [Option.bind_some, Option.bind_some]
    split
    · exact .inl rfl
    · rename_i hgone
      rw [Bool.or_eq_true, not_or, Bool.not_eq_true, Bool.not_eq_true] at hgone
      refine .inr ⟨hgone.1, ?_⟩
      intro stream hstream
      have hpinned := hgone.2
      rw [hasPinned, Bool.or_eq_false_iff, List.any_eq_false] at hpinned
      simpa using hpinned.2 (n, stream) (mem_toList.mpr hstream)

end

theorem reclaim_released {keep : Bytes → ClientTextEditState → Option ClientTextEditState}
    (hkeep : ∀ (client : Bytes) (state kept : ClientTextEditState) (node : NodeId)
      (stream : EditorStream), keep client state = some kept →
        kept.editorStreams[node]? = some stream → state.editorStreams[node]? = some stream) :
    Released tracker (reclaim tracker keep).1 := by
  intro client node stream hstream
  rw [streamOf_reclaim, Option.bind_eq_some_iff] at hstream
  obtain ⟨state, hstate, hkept⟩ := hstream
  obtain ⟨kept, hkeeps, hnode⟩ := Option.bind_eq_some_iff.mp hkept
  refine ⟨stream, ?_, rfl, rfl, Finset.Subset.refl _⟩
  rw [streamOf, hstate, Option.bind_some]
  exact hkeep client state kept node stream hkeeps hnode

theorem reclaim_keepStreams_released (tracker : TextEditTracker) (p : NodeId → Bool) :
    Released tracker (reclaim tracker fun _ => keepStreams p).1 := by
  refine reclaim_released fun client state kept node stream hkeep hstream => ?_
  rw [keepStreams] at hkeep
  split at hkeep
  · simp at hkeep
  · rw [← Option.some.inj hkeep] at hstream
    exact ((getElem?_select _ _ _ _).mp hstream).1

theorem reclaimNodes_released (tracker : TextEditTracker) (doomed : Finset NodeId) :
    Released tracker (reclaimNodes tracker doomed).1 := by
  rw [reclaimNodes]
  split
  · exact Released.of_eq fun _ _ => rfl
  · exact reclaim_keepStreams_released tracker _

theorem reclaimDepartedClients_released (tracker : TextEditTracker) (dedupe : EventDeduplicator) :
    Released tracker (reclaimDepartedClients tracker dedupe).1 := by
  refine reclaim_released fun client state kept node stream hkeep hstream => ?_
  split at hkeep
  · exact Option.some.inj hkeep ▸ hstream
  · simp at hkeep

/-- What `reserve` does when it grants a generation: the stream gets the next one, and
an edit above all others it has. -/
structure Grants (tracker : TextEditTracker) (client : Bytes) (node : NodeId) (editSeq : EditSeq)
    (generation : Nat) (tracker' : TextEditTracker) : Prop where
  positive : 0 < generation
  others : ∀ c n, ¬ (client = c ∧ node = n) → streamOf tracker' c n = streamOf tracker c n
  own : ∃ stream', streamOf tracker' client node = some stream' ∧
    stream'.generation = generation ∧ stream'.lastTerminalEditSeq < editSeq.get ∧
    ((streamOf tracker client node = none ∧ generation = 1 ∧
        stream' = ⟨0, {editSeq.get}, 1⟩) ∨
      ∃ stream, streamOf tracker client node = some stream ∧
        generation = stream.generation + 1 ∧
        stream'.lastTerminalEditSeq = stream.lastTerminalEditSeq ∧
        (∀ seq ∈ stream.inFlightEditSeqs, seq < editSeq.get) ∧
        stream'.inFlightEditSeqs = insert editSeq.get stream.inFlightEditSeqs)

variable {seq generation : Nat}

theorem le_watermark {stream : EditorStream} (h : seq ∈ stream.inFlightEditSeqs) :
    seq ≤ watermark stream := by
  have hsome : stream.inFlightEditSeqs ≠ ∅ := Finset.ne_empty_of_mem h
  rw [watermark, if_neg hsome]
  exact (Finset.le_sup (f := id) h).trans (Nat.le_max_left _ _)

theorem terminal_le_watermark (stream : EditorStream) :
    stream.lastTerminalEditSeq ≤ watermark stream := Nat.le_max_right _ _

theorem reserve_cases (tracker : TextEditTracker) (client : Bytes) (node : NodeId)
    (editSeq : EditSeq) :
    (∃ error, reserve tracker client node editSeq = (tracker, .error error)) ∨
      ∃ tracker' generation, reserve tracker client node editSeq = (tracker', .ok generation) ∧
        Grants tracker client node editSeq generation tracker' := by
  rw [reserve]
  split
  · rename_i stream hstream
    split
    · exact .inl ⟨_, rfl⟩
    rename_i habove
    split
    · exact .inl ⟨_, rfl⟩
    rename_i generation hgeneration
    obtain ⟨-, rfl⟩ := checkedAdd_eq_some.mp hgeneration
    have hwatermark : watermark stream < editSeq.get := Nat.lt_of_not_le habove
    refine .inr ⟨_, _, rfl, Nat.succ_pos _, ?_, ?_⟩
    · intro c n hother
      rw [streamOf_putStream, if_neg hother]
    · refine ⟨_, (streamOf_putStream _ _ _ _ _ _).trans (if_pos ⟨rfl, rfl⟩), rfl,
        (terminal_le_watermark stream).trans_lt hwatermark,
        .inr ⟨stream, hstream, rfl, rfl, ?_, rfl⟩⟩
      exact fun seq hseq => (le_watermark hseq).trans_lt hwatermark
  · rename_i hnone
    split
    · exact .inl ⟨_, rfl⟩
    refine .inr ⟨_, _, rfl, Nat.one_pos, ?_, ?_⟩
    · intro c n hother
      exact (streamOf_putStream tracker client node _ c n).trans (if_neg hother)
    · exact ⟨_, (streamOf_putStream tracker client node _ client node).trans (if_pos ⟨rfl, rfl⟩),
        rfl, editSeq.positive, .inl ⟨hnone, rfl, rfl⟩⟩

/-- A tracker with all generations it has granted for each edit, the newest first. -/
structure Tracked where
  tracker : TextEditTracker
  granted : Bytes → NodeId → Nat → List Nat

/-- The calls on a tracker, in any order. `begin` is made for an attempt that was
granted its generation. -/
inductive Input where
  | reserve (client : Bytes) (node : NodeId) (editSeq : EditSeq)
  | markTerminal (client : Bytes) (node : NodeId) (editSeq : EditSeq)
  | abandonReservation (client : Bytes) (node : NodeId) (editSeq : EditSeq)
  | begin (client : Bytes) (node : NodeId) (editSeq : EditSeq) (generation eventSeq : Nat)
  | finish (client : Bytes) (eventSeq : Nat)
  | reclaimNode (node : NodeId)
  | reclaimNodes (doomed : Finset NodeId)
  | reclaimMissingNodes (store : SemanticStore)
  | reclaimDepartedClients (dedupe : EventDeduplicator)

def record (granted : Bytes → NodeId → Nat → List Nat) (client : Bytes) (node : NodeId)
    (editSeq generation : Nat) : Bytes → NodeId → Nat → List Nat :=
  fun c n seq =>
    if client = c ∧ node = n ∧ editSeq = seq then generation :: granted c n seq
    else granted c n seq

def step (state : Tracked) : Input → Tracked
  | .reserve client node editSeq =>
    match reserve state.tracker client node editSeq with
    | (tracker, .ok generation) =>
      ⟨tracker, record state.granted client node editSeq.get generation⟩
    | (tracker, .error _) => { state with tracker := tracker }
  | .markTerminal client node editSeq =>
    { state with tracker := markTerminal state.tracker client node editSeq }
  | .abandonReservation client node editSeq =>
    { state with tracker := abandonReservation state.tracker client node editSeq }
  | .begin client node editSeq _ eventSeq =>
    { state with
      tracker := (beginCommittedHandlerDispatch state.tracker client eventSeq
        ⟨node, editSeq.get⟩).1 }
  | .finish client eventSeq =>
    { state with tracker := finishCommittedHandlerDispatch state.tracker client eventSeq }
  | .reclaimNode node => { state with tracker := (reclaimNode state.tracker node).1 }
  | .reclaimNodes doomed => { state with tracker := (reclaimNodes state.tracker doomed).1 }
  | .reclaimMissingNodes store =>
    { state with tracker := (reclaimMissingNodes state.tracker store).1 }
  | .reclaimDepartedClients dedupe =>
    { state with tracker := (reclaimDepartedClients state.tracker dedupe).1 }

def outcome (state : Tracked) : Input → Except TrackerPanic Unit
  | .begin client node editSeq _ eventSeq =>
    (beginCommittedHandlerDispatch state.tracker client eventSeq ⟨node, editSeq.get⟩).2
  | .reclaimNode node => (reclaimNode state.tracker node).2
  | .reclaimNodes doomed => (reclaimNodes state.tracker doomed).2
  | .reclaimMissingNodes store => (reclaimMissingNodes state.tracker store).2
  | .reclaimDepartedClients dedupe => (reclaimDepartedClients state.tracker dedupe).2
  | _ => .ok ()

/-- A handler dispatch begins after the generation check of a commit: the attempt's own
generation is still the one of the stream, or zero for a stream that is gone. -/
def ChecksGeneration (state : Tracked) : Input → Prop
  | .begin client node editSeq generation _ =>
    generation ∈ state.granted client node editSeq.get ∧
      (generationOf state.tracker client node).getD 0 = generation
  | _ => True

/-- No subtraction underflows and no `expect` fails. -/
def NoPanic (state : Tracked) (input : Input) : Prop :=
  outcome state input ≠ .error .countUnderflow ∧ outcome state input ≠ .error .missingClient

/-- The generation an edit was last granted is not the newest of its stream. -/
def IsSuperseded (state : Tracked) (client : Bytes) (node : NodeId) (seq : Nat)
    (stream : EditorStream) : Prop :=
  ∃ generation ∈ (state.granted client node seq).head?, generation < stream.generation

/-- Every edit in flight is above the terminal watermark or superseded. -/
def InFlightAbove (state : Tracked) : Prop :=
  ∀ client node stream, streamOf state.tracker client node = some stream →
    ∀ seq ∈ stream.inFlightEditSeqs,
      stream.lastTerminalEditSeq < seq ∨ IsSuperseded state client node seq stream

/-- An edit made terminal is not above the newest reservation while that is in flight. -/
def MarksReserved (state : Tracked) : Input → Prop
  | .markTerminal client node editSeq =>
    ∀ stream ∈ streamOf state.tracker client node, ∀ seq ∈ stream.inFlightEditSeqs,
      (state.granted client node seq).head? = some stream.generation → editSeq.get ≤ seq
  | _ => True

def opened (maxStreams : Nat) : Tracked := ⟨TextEditTracker.new maxStreams, fun _ _ _ => []⟩

/-- Every granted generation is positive, and an edit in flight holds one that its
stream has reached. -/
structure Granted (state : Tracked) : Prop where
  positive : ∀ client node seq, ∀ generation ∈ state.granted client node seq, 0 < generation
  reached : ∀ client node stream, streamOf state.tracker client node = some stream →
    ∀ seq ∈ stream.inFlightEditSeqs, ∃ generation,
      (state.granted client node seq).head? = some generation ∧ generation ≤ stream.generation

variable {state : Tracked}

theorem step_accounted (h : Accounted state.tracker) (input : Input) :
    Accounted (step state input).tracker := by
  cases input with
  | reserve client node editSeq =>
    have haccounted := reserve_accounted h client node editSeq
    rw [step]
    split
    · rename_i tracker generation hreserve
      rw [hreserve] at haccounted
      exact haccounted
    · rename_i tracker error hreserve
      rw [hreserve] at haccounted
      exact haccounted
  | markTerminal client node editSeq | abandonReservation client node editSeq =>
    exact onStream_accounted h client node _
  | begin client node editSeq generation eventSeq => exact begin_accounted h client eventSeq _
  | finish client eventSeq => exact finish_accounted h client eventSeq
  | reclaimNode node | reclaimMissingNodes store => exact (reclaim_keepStreams h _).1
  | reclaimNodes doomed => exact (reclaimNodes_accounted h doomed).1
  | reclaimDepartedClients dedupe => exact (reclaimDepartedClients_accounted h dedupe).1

theorem Granted.released (h : Granted state)
    (hreleased : Released state.tracker tracker') :
    Granted { state with tracker := tracker' } := by
  refine ⟨h.positive, ?_⟩
  intro client node stream' hstream' seq hseq
  obtain ⟨stream, hstream, hgeneration, -, hsubset⟩ := hreleased client node stream' hstream'
  rw [hgeneration]
  exact h.reached client node stream hstream seq (hsubset hseq)

theorem InFlightAbove.released (h : InFlightAbove state)
    (hreleased : Released state.tracker tracker') :
    InFlightAbove { state with tracker := tracker' } := by
  intro client node stream' hstream' seq hseq
  obtain ⟨stream, hstream, hgeneration, hterminal, hsubset⟩ :=
    hreleased client node stream' hstream'
  rw [hterminal, IsSuperseded, hgeneration]
  exact h client node stream hstream seq (hsubset hseq)

theorem step_cases (state : Tracked) (input : Input) :
    (∃ client node editSeq tracker' generation,
      step state input = ⟨tracker', record state.granted client node editSeq.get generation⟩ ∧
        Grants state.tracker client node editSeq generation tracker') ∨
    (∃ client node editSeq, input = .markTerminal client node editSeq ∧
      step state input = { state with
        tracker := markTerminal state.tracker client node editSeq }) ∨
    ∃ tracker', step state input = { state with tracker := tracker' } ∧
      Released state.tracker tracker' := by
  cases input with
  | reserve client node editSeq =>
    rw [step]
    rcases reserve_cases state.tracker client node editSeq with
      ⟨error, hrefused⟩ | ⟨tracker', generation, hreserve, hgrants⟩
    · rw [hrefused]
      exact .inr (.inr ⟨_, rfl, Released.of_eq fun _ _ => rfl⟩)
    · rw [hreserve]
      exact .inl ⟨client, node, editSeq, tracker', generation, rfl, hgrants⟩
  | markTerminal client node editSeq => exact .inr (.inl ⟨client, node, editSeq, rfl, rfl⟩)
  | abandonReservation client node editSeq =>
    exact .inr (.inr ⟨_, rfl, abandonReservation_released _ client node editSeq⟩)
  | begin client node editSeq generation eventSeq =>
    exact .inr (.inr ⟨_, rfl, Released.of_eq (streamOf_begin _ client eventSeq _)⟩)
  | finish client eventSeq =>
    exact .inr (.inr ⟨_, rfl, Released.of_eq (streamOf_finish _ client eventSeq)⟩)
  | reclaimNode node | reclaimMissingNodes store =>
    exact .inr (.inr ⟨_, rfl, reclaim_keepStreams_released _ _⟩)
  | reclaimNodes doomed => exact .inr (.inr ⟨_, rfl, reclaimNodes_released _ doomed⟩)
  | reclaimDepartedClients dedupe =>
    exact .inr (.inr ⟨_, rfl, reclaimDepartedClients_released _ dedupe⟩)

theorem record_self (granted : Bytes → NodeId → Nat → List Nat) (client : Bytes) (node : NodeId)
    (editSeq generation : Nat) :
    record granted client node editSeq generation client node editSeq =
      generation :: granted client node editSeq := if_pos ⟨rfl, rfl, rfl⟩

theorem record_other {granted : Bytes → NodeId → Nat → List Nat} {c : Bytes} {editSeq : Nat}
    (h : ¬ (client = c ∧ node = n ∧ editSeq = seq)) :
    record granted client node editSeq generation c n seq = granted c n seq := if_neg h

variable {editSeq : EditSeq}

theorem Grants.inFlight (h : Granted state)
    (hgrants : Grants state.tracker client node editSeq generation tracker') {c : Bytes}
    {stream' : EditorStream} (hstream' : streamOf tracker' c n = some stream')
    (hseq : seq ∈ stream'.inFlightEditSeqs) :
    (client = c ∧ node = n ∧ editSeq.get = seq ∧ stream'.generation = generation ∧
      stream'.lastTerminalEditSeq < seq) ∨
    (client = c ∧ node = n ∧ editSeq.get ≠ seq ∧ ∃ g,
      (state.granted c n seq).head? = some g ∧ g < stream'.generation) ∨
    (¬ (client = c ∧ node = n) ∧ streamOf state.tracker c n = some stream') := by
  by_cases hsame : client = c ∧ node = n
  · obtain ⟨rfl, rfl⟩ := hsame
    obtain ⟨stream, hstream, hgeneration, hterminal, hcases⟩ := hgrants.own
    rw [hstream] at hstream'
    obtain rfl := Option.some.inj hstream'
    rcases hcases with ⟨-, -, heq⟩ | ⟨before, hbefore, hnext, -, hbelow, hinserted⟩
    · rw [heq] at hseq
      obtain rfl := Finset.mem_singleton.mp hseq
      exact .inl ⟨rfl, rfl, rfl, hgeneration, hterminal⟩
    · rw [hinserted, Finset.mem_insert] at hseq
      rcases hseq with rfl | hold
      · exact .inl ⟨rfl, rfl, rfl, hgeneration, hterminal⟩
      · obtain ⟨g, hg, hle⟩ := h.reached client node before hbefore seq hold
        refine .inr (.inl ⟨rfl, rfl, Ne.symm (hbelow seq hold).ne, g, hg, ?_⟩)
        omega
  · rw [hgrants.others c n hsame] at hstream'
    exact .inr (.inr ⟨hsame, hstream'⟩)

theorem reserve_granted (h : Granted state)
    (hgrants : Grants state.tracker client node editSeq generation tracker') :
    Granted ⟨tracker', record state.granted client node editSeq.get generation⟩ := by
  refine ⟨?_, ?_⟩
  · intro c n seq g hg
    change g ∈ record state.granted client node editSeq.get generation c n seq at hg
    rw [record] at hg
    split at hg
    · rcases List.mem_cons.mp hg with rfl | hold
      · exact hgrants.positive
      · exact h.positive c n seq g hold
    · exact h.positive c n seq g hg
  · intro c n stream' hstream' seq hseq
    rcases hgrants.inFlight h hstream' hseq with
      ⟨rfl, rfl, rfl, hgeneration, -⟩ | ⟨rfl, rfl, hne, g, hg, hlt⟩ | ⟨hother, hstream⟩
    · exact ⟨generation, congrArg List.head? (record_self _ _ _ _ _), hgeneration.ge⟩
    · exact ⟨g, (congrArg List.head? (record_other fun hall => hne hall.2.2)).trans hg, hlt.le⟩
    · obtain ⟨g, hg, hle⟩ := h.reached c n stream' hstream seq hseq
      exact ⟨g, (congrArg List.head? (record_other
        fun hall => hother ⟨hall.1, hall.2.1⟩)).trans hg, hle⟩

theorem reserve_inFlightAbove (h : InFlightAbove state) (hgranted : Granted state)
    (hgrants : Grants state.tracker client node editSeq generation tracker') :
    InFlightAbove ⟨tracker', record state.granted client node editSeq.get generation⟩ := by
  intro c n stream' hstream' seq hseq
  rcases hgrants.inFlight hgranted hstream' hseq with
    ⟨rfl, rfl, rfl, -, hterminal⟩ | ⟨rfl, rfl, hne, g, hg, hlt⟩ | ⟨hother, hstream⟩
  · exact .inl hterminal
  · exact .inr ⟨g, (congrArg List.head? (record_other fun hall => hne hall.2.2)).trans hg, hlt⟩
  · rcases h c n stream' hstream seq hseq with habove | ⟨g, hg, hlt⟩
    · exact .inl habove
    · exact .inr ⟨g, (congrArg List.head? (record_other
        fun hall => hother ⟨hall.1, hall.2.1⟩)).trans hg, hlt⟩

theorem markTerminal_granted (h : Granted state) (client : Bytes)
    (node : NodeId) (editSeq : EditSeq) :
    Granted { state with tracker := markTerminal state.tracker client node editSeq } := by
  refine ⟨h.positive, ?_⟩
  intro c n stream' hstream' seq hseq
  rw [markTerminal, streamOf_onStream] at hstream'
  split at hstream'
  · obtain ⟨stream, hstream, rfl⟩ := Option.map_eq_some_iff.mp hstream'
    exact h.reached c n stream hstream seq (Finset.mem_of_mem_erase hseq)
  · exact h.reached c n stream' hstream' seq hseq

theorem markTerminal_inFlightAbove (h : InFlightAbove state)
    (hgranted : Granted state)
    (hmark : MarksReserved state (.markTerminal client node editSeq)) :
    InFlightAbove { state with tracker := markTerminal state.tracker client node editSeq } := by
  intro c n stream' hstream' seq hseq
  rw [markTerminal, streamOf_onStream] at hstream'
  split at hstream'
  · rename_i hsame
    obtain ⟨rfl, rfl⟩ := hsame
    obtain ⟨stream, hstream, rfl⟩ := Option.map_eq_some_iff.mp hstream'
    obtain ⟨hne, hbefore⟩ := Finset.mem_erase.mp hseq
    rcases h client node stream hstream seq hbefore with habove | hsuperseded
    · obtain ⟨g, hg, hle⟩ := hgranted.reached client node stream hstream seq hbefore
      rcases Nat.lt_or_eq_of_le hle with hlt | rfl
      · exact .inr ⟨g, hg, hlt⟩
      · have hreserved := hmark stream hstream seq hbefore hg
        exact .inl (Nat.max_lt.mpr ⟨habove, Nat.lt_of_le_of_ne hreserved (Ne.symm hne)⟩)
    · exact .inr hsuperseded
  · exact h c n stream' hstream' seq hseq

theorem step_granted (h : Granted state) (input : Input) :
    Granted (step state input) := by
  rcases step_cases state input with
    ⟨client, node, editSeq, tracker', generation, hstep, hgrants⟩ |
    ⟨client, node, editSeq, -, hstep⟩ | ⟨tracker', hstep, hreleased⟩
  · rw [hstep]
    exact reserve_granted h hgrants
  · rw [hstep]
    exact markTerminal_granted h client node editSeq
  · rw [hstep]
    exact h.released hreleased

theorem step_inFlightAbove (h : InFlightAbove state) (hgranted : Granted state)
    {input : Input} (hmarks : MarksReserved state input) : InFlightAbove (step state input) := by
  rcases step_cases state input with
    ⟨client, node, editSeq, tracker', generation, hstep, hgrants⟩ |
    ⟨client, node, editSeq, rfl, hstep⟩ | ⟨tracker', hstep, hreleased⟩
  · rw [hstep]
    exact reserve_inFlightAbove h hgranted hgrants
  · rw [hstep]
    exact markTerminal_inFlightAbove h hgranted hmarks
  · rw [hstep]
    exact h.released hreleased

theorem step_noPanic (h : Accounted state.tracker) (hgranted : Granted state)
    {input : Input} (hchecks : ChecksGeneration state input) : NoPanic state input := by
  cases input with
  | begin client node editSeq generation eventSeq =>
    obtain ⟨hmem, hgeneration⟩ := hchecks
    have hpositive := hgranted.positive client node editSeq.get generation hmem
    rw [NoPanic, outcome, beginCommittedHandlerDispatch]
    split
    · rename_i hnone
      rw [generationOf, streamOf, hnone] at hgeneration
      simp at hgeneration
      omega
    · simp only
      split
      · exact ⟨by simp, by simp⟩
      · exact ⟨by simp, by simp⟩
  | reclaimNode node =>
    have hok : outcome state (.reclaimNode node) = .ok () := (reclaim_keepStreams h _).2
    simp [NoPanic, hok]
  | reclaimNodes doomed =>
    have hok : outcome state (.reclaimNodes doomed) = .ok () := (reclaimNodes_accounted h doomed).2
    simp [NoPanic, hok]
  | reclaimMissingNodes store =>
    have hok : outcome state (.reclaimMissingNodes store) = .ok () := (reclaim_keepStreams h _).2
    simp [NoPanic, hok]
  | reclaimDepartedClients dedupe =>
    have hok : outcome state (.reclaimDepartedClients dedupe) = .ok () :=
      (reclaimDepartedClients_accounted h dedupe).2
    simp [NoPanic, hok]
  | _ => simp [NoPanic, outcome]

/-- Every run keeps the accounts and meets no underflow and no missing client, and as
long as no edit above the newest reservation in flight is made terminal, every edit in
flight is above the watermark or superseded. -/
theorem tracker_accounting (maxStreams : Nat) (inputs : List Input)
    (hchecks : EveryStep step ChecksGeneration (opened maxStreams) inputs) :
    EveryState step (fun state => Accounted state.tracker) (opened maxStreams) inputs ∧
      EveryStep step NoPanic (opened maxStreams) inputs ∧
      (EveryStep step MarksReserved (opened maxStreams) inputs →
        EveryState step InFlightAbove (opened maxStreams) inputs) := by
  have haccounted : Accounted (opened maxStreams).tracker := new_accounted maxStreams
  have hnone : ∀ client node, streamOf (opened maxStreams).tracker client node = none := by
    intro client node
    simp [streamOf, opened, TextEditTracker.new]
  have hgranted : Granted (opened maxStreams) := by
    refine ⟨?_, ?_⟩
    · intro client node seq generation hgeneration
      exact absurd hgeneration List.not_mem_nil
    · intro client node stream hstream
      rw [hnone client node] at hstream
      simp at hstream
  have habove : InFlightAbove (opened maxStreams) := by
    intro client node stream hstream
    rw [hnone client node] at hstream
    simp at hstream
  refine ⟨?_, ?_, ?_⟩
  · exact hchecks.everyState (fun state input h _ => step_accounted h input) haccounted
  · exact EveryStep.of_invariant
      (P := fun state => Accounted state.tracker ∧ Granted state)
      (fun state input h _ => ⟨step_accounted h.1 input, step_granted h.2 input⟩)
      (fun state input h hcheck => step_noPanic h.1 h.2 hcheck) hchecks ⟨haccounted, hgranted⟩
  · intro hmarks
    have hboth : EveryState step (fun state => InFlightAbove state ∧ Granted state)
        (opened maxStreams) inputs :=
      hmarks.everyState (fun state input h hmark =>
        ⟨step_inFlightAbove h.1 h.2 hmark, step_granted h.2 input⟩) ⟨habove, hgranted⟩
    exact hboth.mono fun state h => h.1

/-- A client's first edit of a node, its commit, and the reclamation of the node while
the handlers of the edit still run. -/
def firstEdit : List Input :=
  [.reserve [1] 7 ⟨1, Nat.one_pos⟩, .markTerminal [1] 7 ⟨1, Nat.one_pos⟩,
    .begin [1] 7 ⟨1, Nat.one_pos⟩ 1 1, .reclaimNode 7, .finish [1] 1]

theorem firstEdit_accounting :
    EveryStep step ChecksGeneration (opened 4) firstEdit ∧
      EveryState step (fun state => Accounted state.tracker) (opened 4) firstEdit := by
  have hchecks : EveryStep step ChecksGeneration (opened 4) firstEdit :=
    ⟨trivial, trivial, ⟨by decide +kernel, by decide +kernel⟩, trivial, trivial, trivial⟩
  exact ⟨hchecks, (tracker_accounting 4 firstEdit hchecks).1⟩

/-- An edit above the one in flight is made terminal. -/
theorem marking_ahead_leaves_edit_below :
    EveryStep step ChecksGeneration (opened 4)
        [.reserve [1] 7 ⟨5, by decide⟩, .markTerminal [1] 7 ⟨100, by decide⟩] ∧
      ¬ EveryState step InFlightAbove (opened 4)
        [.reserve [1] 7 ⟨5, by decide⟩, .markTerminal [1] 7 ⟨100, by decide⟩] := by
  refine ⟨⟨trivial, trivial, trivial⟩, fun hevery => ?_⟩
  have hlast := hevery.last
  have hstream : streamOf (run step (opened 4)
      [.reserve [1] 7 ⟨5, by decide⟩, .markTerminal [1] 7 ⟨100, by decide⟩]).tracker [1] 7 =
        some ⟨100, {5}, 1⟩ := by decide +kernel
  rcases hlast [1] 7 ⟨100, {5}, 1⟩ hstream 5 (by decide) with hlt | ⟨generation, hgeneration, hlt⟩
  · exact absurd hlt (by decide)
  · have hgranted : ((run step (opened 4) [.reserve [1] 7 ⟨5, by decide⟩,
        .markTerminal [1] 7 ⟨100, by decide⟩]).granted [1] 7 5).head? = some 1 := by
      decide +kernel
    rw [hgranted] at hgeneration
    obtain rfl := Option.mem_some.mp hgeneration
    exact absurd hlt (by decide)

end Srui.Sessiond.TextEditTrackers

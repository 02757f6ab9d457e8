import Srui.EventDedupe.Representation
import Srui.Sessiond.EventCalls

/-!
The order of committed text edits. Beside the session run two logs for each client
and node: the reservations that were granted, and the edit sequences whose decisions
reached the store. The second starts over when the client's event history is gone.
-/

namespace Srui.Sessiond.TextEditOrder

open Std Basic.Runs EventDedupe.Windows EventDedupe.Deduplicators EventDedupe.Representation
open SemanticTree.Values SemanticTree.Limits SemanticTree.Stores SemanticTree.Operations
open SemanticTree.NodeForest SemanticTree.NodeRuns SemanticTree.Events Sessiond.Sessions
open Sessiond.SessionCommits
open Sessiond.TextEditTrackers hiding Input step opened
open Sessiond.EventProcessing Sessiond.EventCalls

abbrev Log (α : Type) := Bytes → NodeId → List α

def Log.push {α : Type} (log : Log α) : Option (Bytes × NodeId × α) → Log α
  | some (client, node, entry) =>
    fun c n => if client = c ∧ node = n then entry :: log c n else log c n
  | none => log

structure Observed where
  system : EventSystem
  reserved : Log (TextEditRequest × Nat)
  committed : Log Nat

variable (env : Externals)

def reservation (s : EventSystem) : Input → Option (Bytes × NodeId × TextEditRequest × Nat)
  | .processEvent event =>
    match (beginEvent env s.inner event).2 with
    | .ok (.deciding request generation) =>
      some (event.clientInstanceId, request.nodeId, request, generation)
    | _ => none
  | _ => none

def publication (s : EventSystem) : Input → Option (Bytes × NodeId × Nat)
  | .decided place decision =>
    match s.attempts[place]? with
    | some ⟨event, .deciding request _⟩ =>
      if (step env s (.decided place decision)).inner.session.store = s.inner.session.store then
        none
      else some (event.clientInstanceId, request.nodeId, request.editSeq.get)
    | _ => none
  | _ => none

def Log.retain {α : Type} (log : Log α) (dedupe : EventDeduplicator) : Log α :=
  fun c n => if hasEventSequenceHistory dedupe c then log c n else []

def observe (s : Observed) (input : Input) : Observed where
  system := step env s.system input
  reserved := s.reserved.push (reservation env s.system input)
  committed := (s.committed.push (publication env s.system input)).retain
    (step env s.system input).inner.dedupe

def started (limits : StoreLimits) (capacity maxEntries maxWindows maxStreams : Nat) :
    Observed where
  system := opened limits capacity maxEntries maxWindows maxStreams
  reserved := fun _ _ => []
  committed := fun _ _ => []

/-- A decision changes the store only for the newest reservation of its stream; the
decision on an edit that a later reservation superseded changes nothing. -/
def DecidesNewest (s : Observed) (input : Input) : Prop :=
  ∀ place decision event request generation, input = .decided place decision →
    s.system.attempts[place]? = some ⟨event, .deciding request generation⟩ →
      (s.reserved event.clientInstanceId request.nodeId).head? = some (request, generation) ∨
        (observe env s input).system.inner.session.store = s.system.inner.session.store

variable {env}

def Pending (stream : Option EditorStream) (log : List (TextEditRequest × Nat))
    (request : TextEditRequest) (generation : Nat) : Prop :=
  ∃ found, stream = some found ∧ request.editSeq.get ∈ found.inFlightEditSeqs ∧
    generation ≤ found.generation ∧
    (generation = found.generation → log.head? = some (request, generation) ∧
      found.lastTerminalEditSeq < request.editSeq.get ∧
      ∀ seq ∈ found.inFlightEditSeqs, seq ≤ request.editSeq.get)

def Past (stream : Option EditorStream) (seq : Nat) : Prop :=
  ∃ found, stream = some found ∧ seq ≤ found.lastTerminalEditSeq

def held (attempt : Attempt) : Option (Bytes × NodeId × Nat) :=
  match attempt.phase with
  | .deciding request _ =>
    some (attempt.event.clientInstanceId, request.nodeId, request.editSeq.get)
  | .dispatching _ => none

structure Ordered (s : Observed) : Prop where
  core : Core s.system.inner.dedupe
  forest : StoreForest s.system.inner.session.store
  known : ∀ event request generation,
    (⟨event, .deciding request generation⟩ : Attempt) ∈ s.system.attempts →
      request.nodeId ∈ s.system.inner.session.store.usedIds
  pending : ∀ event request generation,
    (⟨event, .deciding request generation⟩ : Attempt) ∈ s.system.attempts →
      s.system.inner.session.store.nodes.contains request.nodeId = true →
        Pending (streamOf s.system.inner.textEditTracker event.clientInstanceId request.nodeId)
          (s.reserved event.clientInstanceId request.nodeId) request generation
  distinct : (s.system.attempts.filterMap held).Nodup
  past : ∀ c n, ∀ seq ∈ s.committed c n, n ∈ s.system.inner.session.store.usedIds ∧
    (s.system.inner.session.store.nodes.contains n = true →
      Past (streamOf s.system.inner.textEditTracker c n) seq)
  increasing : ∀ c n, (s.committed c n).Pairwise (· > ·)

variable {n : NodeId} {dedupe : EventDeduplicator} {c client : Bytes}

theorem mem_retain {α : Type} {log : Log α}
    {entry : α} (h : entry ∈ log.retain dedupe c n) :
    hasEventSequenceHistory dedupe c = true ∧ entry ∈ log c n := by
  rw [Log.retain] at h
  split at h
  · rename_i hhistory
    exact ⟨hhistory, h⟩
  · simp at h

theorem retain_pairwise {log : Log Nat} (dedupe : EventDeduplicator)
    (h : (log c n).Pairwise (· > ·)) : (log.retain dedupe c n).Pairwise (· > ·) := by
  rw [Log.retain]
  split
  · exact h
  · exact List.Pairwise.nil

/-- A stream is as it was, or it is gone with the history of its client while nothing
was in flight on it. -/
def Untouched (dedupe : EventDeduplicator) (before after : Option EditorStream) (c : Bytes) :
    Prop :=
  after = before ∨ hasEventSequenceHistory dedupe c = false ∧
    ∀ stream, before = some stream → stream.inFlightEditSeqs = ∅

variable {request other : TextEditRequest} {log : List (TextEditRequest × Nat)}
    {generation otherGeneration place : Nat}

theorem Pending.untouched {before after : Option EditorStream}
    (h : Pending before log request generation)
    (hstream : Untouched dedupe before after c) : Pending after log request generation := by
  rcases hstream with rfl | ⟨-, hidle⟩
  · exact h
  · obtain ⟨found, hfound, hflight, -⟩ := h
    rw [hidle found hfound] at hflight
    simp at hflight

variable {inner : SessionInner} {s : Observed} {attempts : List Attempt}

theorem Ordered.carry (h : Ordered s) (hcore : Core inner.dedupe)
    (hstore : Outlives s.system.inner.session.store inner.session.store)
    (hkept : ∀ event request generation,
      (⟨event, .deciding request generation⟩ : Attempt) ∈ attempts →
        (⟨event, .deciding request generation⟩ : Attempt) ∈ s.system.attempts)
    (hheld : (attempts.filterMap held).Sublist (s.system.attempts.filterMap held))
    (hstreams : ∀ c n, inner.session.store.nodes.contains n = true →
      Untouched inner.dedupe (streamOf s.system.inner.textEditTracker c n)
        (streamOf inner.textEditTracker c n) c) :
    Ordered ⟨⟨inner, attempts⟩, s.reserved, s.committed.retain inner.dedupe⟩ where
  core := hcore
  forest := hstore.forest
  known := by
    intro event request generation hmem
    exact hstore.used _ (h.known event request generation (hkept _ _ _ hmem))
  pending := by
    intro event request generation hmem hlive
    have hold := hkept _ _ _ hmem
    have hbefore := hstore.live _ (h.known event request generation hold) hlive
    exact (h.pending event request generation hold hbefore).untouched (hstreams _ _ hlive)
  distinct := hheld.nodup h.distinct
  past := by
    intro c n seq hseq
    obtain ⟨hhistory, hold⟩ := mem_retain hseq
    obtain ⟨hused, hpast⟩ := h.past c n seq hold
    refine ⟨hstore.used n hused, ?_⟩
    intro hlive
    rcases hstreams c n hlive with hsame | ⟨hgone, -⟩
    · change Past (streamOf inner.textEditTracker c n) seq
      rw [hsame]
      exact hpast (hstore.live n hused hlive)
    · change hasEventSequenceHistory inner.dedupe c = true at hhistory
      rw [hhistory] at hgone
      simp at hgone
  increasing := fun c n => retain_pairwise _ (h.increasing c n)

def letGo (seq : Nat) (terminal : Nat → Nat) (stream : EditorStream) : EditorStream :=
  { stream with
    inFlightEditSeqs := stream.inFlightEditSeqs.erase seq
    lastTerminalEditSeq := terminal stream.lastTerminalEditSeq }

theorem Pending.letGo {stream : Option EditorStream} {terminal : Nat → Nat}
    (h : Pending stream log other otherGeneration)
    (hended : Pending stream log request generation)
    (hne : other.editSeq.get ≠ request.editSeq.get)
    (hterminal : ∀ last, terminal last ≤ max last request.editSeq.get) :
    Pending (stream.map (letGo request.editSeq.get terminal)) log other otherGeneration := by
  obtain ⟨found, rfl, hflight, hgeneration, hnewest⟩ := h
  obtain ⟨same, hsame, hendedFlight, -⟩ := hended
  obtain rfl := Option.some.inj hsame
  refine ⟨_, rfl, Finset.mem_erase.mpr ⟨hne, hflight⟩, hgeneration, ?_⟩
  intro heq
  obtain ⟨hhead, hlast, habove⟩ := hnewest heq
  refine ⟨hhead, ?_, fun seq hseq => habove seq (Finset.mem_of_mem_erase hseq)⟩
  have hle := habove _ hendedFlight
  have hbound := hterminal found.lastTerminalEditSeq
  change terminal found.lastTerminalEditSeq < other.editSeq.get
  omega

variable {event : WireEvent}

theorem Ordered.release (h : Ordered s)
    (hplace : s.system.attempts[place]? = some ⟨event, .deciding request generation⟩)
    {terminal : Nat → Nat}
    (hcore : Core inner.dedupe)
    (hstore : Outlives s.system.inner.session.store inner.session.store)
    (hattempts : attempts.filterMap held = (s.system.attempts.eraseIdx place).filterMap held)
    (hkept : ∀ event request generation,
      (⟨event, .deciding request generation⟩ : Attempt) ∈ attempts →
        (⟨event, .deciding request generation⟩ : Attempt) ∈ s.system.attempts.eraseIdx place)
    (hterminal : ∀ last, last ≤ terminal last ∧ terminal last ≤ max last request.editSeq.get)
    (hstreams : ∀ c n, streamOf inner.textEditTracker c n =
      if event.clientInstanceId = c ∧ request.nodeId = n then
        (streamOf s.system.inner.textEditTracker c n).map (letGo request.editSeq.get terminal)
      else streamOf s.system.inner.textEditTracker c n) :
    Ordered ⟨⟨inner, attempts⟩, s.reserved, s.committed.retain inner.dedupe⟩ where
  core := hcore
  forest := hstore.forest
  known := by
    intro other otherRequest otherGeneration hmem
    have hold := (List.eraseIdx_sublist _ _).mem (hkept _ _ _ hmem)
    exact hstore.used _ (h.known other otherRequest otherGeneration hold)
  pending := by
    intro other otherRequest otherGeneration hmem hlive
    have hrest := hkept _ _ _ hmem
    have hold := (List.eraseIdx_sublist _ _).mem hrest
    have hbefore := hstore.live _ (h.known _ _ _ hold) hlive
    have hpending := h.pending other otherRequest otherGeneration hold hbefore
    change Pending (streamOf inner.textEditTracker other.clientInstanceId otherRequest.nodeId) _ _ _
    rw [hstreams]
    split
    · rename_i hsame
      have hended := h.pending event request generation (List.mem_of_getElem? hplace)
        (hsame.2 ▸ hbefore)
      rw [hsame.1, hsame.2] at hended
      refine hpending.letGo hended ?_ fun last => (hterminal last).2
      intro hseq
      refine held_by_one held hplace rfl h.distinct (List.mem_filterMap.mpr ⟨_, hrest, ?_⟩)
      rw [hsame.1, hsame.2, ← hseq]
      rfl
    · exact hpending
  distinct := by
    change (attempts.filterMap held).Nodup
    rw [hattempts]
    exact ((List.eraseIdx_sublist _ _).filterMap held).nodup h.distinct
  past := by
    intro c n seq hseq
    obtain ⟨-, hold⟩ := mem_retain hseq
    obtain ⟨hused, hpast⟩ := h.past c n seq hold
    refine ⟨hstore.used n hused, ?_⟩
    intro hlive
    obtain ⟨found, hfound, hle⟩ := hpast (hstore.live n hused hlive)
    change Past (streamOf inner.textEditTracker c n) seq
    rw [hstreams, hfound]
    split
    · exact ⟨_, rfl, hle.trans (hterminal found.lastTerminalEditSeq).1⟩
    · exact ⟨found, rfl, hle⟩
  increasing := fun c n => retain_pairwise _ (h.increasing c n)

theorem mem_push {α : Type} {log : Log α} {node : NodeId} {entry a : α}
    (h : a ∈ log.push (some (client, node, entry)) c n) :
    (client = c ∧ node = n ∧ a = entry) ∨ a ∈ log c n := by
  simp only [Log.push] at h
  split at h
  · rename_i hsame
    rcases List.mem_cons.mp h with rfl | hold
    · exact .inl ⟨hsame.1, hsame.2, rfl⟩
    · exact .inr hold
  · exact .inr h

variable {tracker' tracker : TextEditTracker}

theorem Ordered.newest (h : Ordered s)
    (hplace : s.system.attempts[place]? = some ⟨event, .deciding request generation⟩)
    {session' : Session}
    (hpublishes : Publishes s.system.inner event request generation session' tracker') :
    (s.reserved event.clientInstanceId request.nodeId).head? = some (request, generation) ∧
      ∀ seq ∈ s.committed event.clientInstanceId request.nodeId, seq < request.editSeq.get := by
  obtain ⟨node, hnode⟩ := hpublishes.live
  have hlive : s.system.inner.session.store.nodes.contains request.nodeId = true := by
    rw [ExtTreeMap.contains_eq_isSome_getElem?, hnode]
    rfl
  obtain ⟨found, hfound, -, -, hnewest⟩ :=
    h.pending event request generation (List.mem_of_getElem? hplace) hlive
  have hgeneration := hpublishes.newest
  rw [generationOf, hfound, Option.map_some, Option.getD_some] at hgeneration
  obtain ⟨hhead, hlast, -⟩ := hnewest hgeneration.symm
  refine ⟨hhead, ?_⟩
  intro seq hseq
  obtain ⟨same, hsame, hle⟩ := (h.past _ _ seq hseq).2 hlive
  rw [hfound] at hsame
  obtain rfl := Option.some.inj hsame
  exact Nat.lt_of_le_of_lt hle hlast

theorem streamOf_markTerminal (tracker : TextEditTracker) (client : Bytes) (node : NodeId)
    (editSeq : EditSeq) (c : Bytes) (n : NodeId) :
    streamOf (markTerminal tracker client node editSeq) c n =
      if client = c ∧ node = n then
        (streamOf tracker c n).map (letGo editSeq.get fun last => max last editSeq.get)
      else streamOf tracker c n := streamOf_onStream _ _ _ _ c n

theorem streamOf_abandonReservation (tracker : TextEditTracker) (client : Bytes) (node : NodeId)
    (editSeq : EditSeq) (c : Bytes) (n : NodeId) :
    streamOf (abandonReservation tracker client node editSeq) c n =
      if client = c ∧ node = n then
        (streamOf tracker c n).map (letGo editSeq.get fun last => last)
      else streamOf tracker c n := streamOf_onStream _ _ _ _ c n

theorem Ordered.publish (h : Ordered s)
    (hplace : s.system.attempts[place]? = some ⟨event, .deciding request generation⟩)
    (hcore : Core inner.dedupe)
    (hattempts : attempts.filterMap held = (s.system.attempts.eraseIdx place).filterMap held)
    (hkept : ∀ event request generation,
      (⟨event, .deciding request generation⟩ : Attempt) ∈ attempts →
        (⟨event, .deciding request generation⟩ : Attempt) ∈ s.system.attempts.eraseIdx place)
    (hpublishes : Publishes s.system.inner event request generation inner.session
      inner.textEditTracker) :
    Ordered ⟨⟨inner, attempts⟩, s.reserved,
      (s.committed.push (some (event.clientInstanceId, request.nodeId,
        request.editSeq.get))).retain inner.dedupe⟩ := by
  obtain ⟨ops, hcommits⟩ := hpublishes.commits
  have hstore := hcommits.outlives h.forest
  have hstreams := fun c n => (hpublishes.marked c n).trans (streamOf_markTerminal _ _ _ _ c n)
  have hreleased := h.release hplace hcore hstore hattempts hkept
    (fun last => ⟨Nat.le_max_left _ _, Nat.le_refl _⟩) hstreams
  obtain ⟨-, habove⟩ := h.newest hplace hpublishes
  refine { hreleased with past := ?_, increasing := ?_ }
  · intro c n seq hseq
    obtain ⟨hhistory, hpushed⟩ := mem_retain hseq
    rcases mem_push hpushed with ⟨rfl, rfl, rfl⟩ | hold
    · have hmem := List.mem_of_getElem? hplace
      refine ⟨hstore.used _ (h.known event request generation hmem), ?_⟩
      intro hlive
      have hbefore := hstore.live _ (h.known event request generation hmem) hlive
      obtain ⟨found, hfound, -⟩ := h.pending event request generation hmem hbefore
      refine ⟨letGo request.editSeq.get (fun last => max last request.editSeq.get) found, ?_,
        Nat.le_max_right _ _⟩
      change streamOf inner.textEditTracker _ _ = _
      rw [hstreams, if_pos ⟨rfl, rfl⟩, hfound, Option.map_some]
    · refine hreleased.past c n seq ?_
      change seq ∈ s.committed.retain inner.dedupe c n
      rw [Log.retain, if_pos hhistory]
      exact hold
  · intro c n
    refine retain_pairwise _ ?_
    simp only [Log.push]
    split
    · rename_i hsame
      rw [← hsame.1, ← hsame.2]
      exact List.pairwise_cons.mpr ⟨habove, h.increasing _ _⟩
    · exact h.increasing c n

theorem Pending.granted
    (hgrants : Grants tracker client request.nodeId request.editSeq generation tracker') :
    Pending (streamOf tracker' client request.nodeId) ((request, generation) :: log) request
      generation := by
  obtain ⟨stream, hstream, hgeneration, hlast, hcases⟩ := hgrants.own
  refine ⟨stream, hstream, ?_, hgeneration.ge, fun _ => ⟨rfl, hlast, ?_⟩⟩
  · rcases hcases with ⟨-, -, rfl⟩ | ⟨before, -, -, -, -, hinserted⟩
    · exact Finset.mem_singleton_self _
    · rw [hinserted]
      exact Finset.mem_insert_self _ _
  · intro seq hseq
    rcases hcases with ⟨-, -, rfl⟩ | ⟨before, -, -, -, hbelow, hinserted⟩
    · exact (Finset.mem_singleton.mp hseq).le
    · rw [hinserted, Finset.mem_insert] at hseq
      rcases hseq with rfl | hold
      · exact Nat.le_refl _
      · exact (hbelow seq hold).le

theorem Pending.below
    (h : Pending (streamOf tracker client request.nodeId) log other otherGeneration)
    (hgrants : Grants tracker client request.nodeId request.editSeq generation tracker') :
    other.editSeq.get < request.editSeq.get := by
  obtain ⟨found, hfound, hflight, -⟩ := h
  obtain ⟨stream, -, -, -, hcases⟩ := hgrants.own
  rcases hcases with ⟨hnone, -, -⟩ | ⟨before, hbefore, -, -, hbelow, -⟩
  · rw [hfound] at hnone
    simp at hnone
  · rw [hfound] at hbefore
    obtain rfl := Option.some.inj hbefore
    exact hbelow _ hflight

theorem Pending.superseded
    (h : Pending (streamOf tracker client request.nodeId) log other otherGeneration)
    (hgrants : Grants tracker client request.nodeId request.editSeq generation tracker')
    (entry : TextEditRequest × Nat) :
    Pending (streamOf tracker' client request.nodeId) (entry :: log) other otherGeneration := by
  obtain ⟨found, hfound, hflight, hle, -⟩ := h
  obtain ⟨stream, hstream, hgeneration, -, hcases⟩ := hgrants.own
  rcases hcases with ⟨hnone, -, -⟩ | ⟨before, hbefore, hnext, -, -, hinserted⟩
  · rw [hfound] at hnone
    simp at hnone
  · rw [hfound] at hbefore
    obtain rfl := Option.some.inj hbefore
    refine ⟨stream, hstream, ?_, ?_, ?_⟩
    · rw [hinserted]
      exact Finset.mem_insert_of_mem hflight
    · omega
    · intro heq
      omega

theorem Past.granted {node : NodeId}
    {editSeq : EditSeq} {seq : Nat}
    (hgrants : Grants tracker client node editSeq generation tracker')
    (h : Past (streamOf tracker c n) seq) : Past (streamOf tracker' c n) seq := by
  rcases Classical.em (client = c ∧ node = n) with ⟨rfl, rfl⟩ | hother
  · obtain ⟨found, hfound, hle⟩ := h
    obtain ⟨stream, hstream, -, -, hcases⟩ := hgrants.own
    rcases hcases with ⟨hnone, -, -⟩ | ⟨before, hbefore, -, hsame, -, -⟩
    · rw [hfound] at hnone
      simp at hnone
    · rw [hfound] at hbefore
      obtain rfl := Option.some.inj hbefore
      exact ⟨stream, hstream, hsame ▸ hle⟩
  · rw [hgrants.others c n hother]
    exact h

theorem Ordered.grant (h : Ordered s)
    (hlive : s.system.inner.session.store.nodes.contains request.nodeId = true)
    (hgrants : Grants s.system.inner.textEditTracker event.clientInstanceId request.nodeId
      request.editSeq generation tracker') :
    Ordered ⟨⟨{ s.system.inner with textEditTracker := tracker' },
        ⟨event, .deciding request generation⟩ :: s.system.attempts⟩,
      s.reserved.push (some (event.clientInstanceId, request.nodeId, request, generation)),
      s.committed⟩ where
  core := h.core
  forest := h.forest
  known := by
    intro other otherRequest otherGeneration hmem
    rcases List.mem_cons.mp hmem with heq | hold
    · simp only [Attempt.mk.injEq, Phase.deciding.injEq] at heq
      rw [heq.2.1]
      rw [ExtTreeMap.contains_eq_isSome_getElem?, Option.isSome_iff_exists] at hlive
      obtain ⟨node, hnode⟩ := hlive
      exact h.forest.used request.nodeId node.parentId (congrArg (Option.map Node.parentId) hnode)
    · exact h.known other otherRequest otherGeneration hold
  pending := by
    intro other otherRequest otherGeneration hmem hnode
    rcases List.mem_cons.mp hmem with heq | hold
    · simp only [Attempt.mk.injEq, Phase.deciding.injEq] at heq
      obtain ⟨rfl, rfl, rfl⟩ := heq
      simp only [Log.push, and_self, if_true]
      exact Pending.granted hgrants
    · have hpending := h.pending other otherRequest otherGeneration hold hnode
      simp only [Log.push]
      split
      · rename_i hsame
        rw [← hsame.1, ← hsame.2] at hpending ⊢
        exact hpending.superseded hgrants _
      · rename_i hother
        rw [hgrants.others _ _ hother]
        exact hpending
  distinct := by
    refine List.nodup_cons.mpr ⟨?_, h.distinct⟩
    intro hmem
    obtain ⟨⟨other, phase⟩, hold, hheld⟩ := List.mem_filterMap.mp hmem
    cases phase with
    | dispatching kind => simp [held] at hheld
    | deciding otherRequest otherGeneration =>
      simp only [held, Option.some.injEq, Prod.mk.injEq] at hheld
      obtain ⟨hclient, hnode, hseq⟩ := hheld
      have hpending := h.pending other otherRequest otherGeneration hold (hnode ▸ hlive)
      rw [hclient, hnode] at hpending
      exact (hpending.below hgrants).ne hseq
  past := by
    intro c n seq hseq
    obtain ⟨hused, hpast⟩ := h.past c n seq hseq
    exact ⟨hused, fun hnode => (hpast hnode).granted hgrants⟩
  increasing := h.increasing

theorem OnlyWindow.history {d d' : EventDeduplicator}
    {change : ClientDedupeWindow → ClientDedupeWindow} (h : OnlyWindow d c change d') (a : Bytes) :
    hasEventSequenceHistory d' a = hasEventSequenceHistory d a := by
  have hcontains : d'.clients.contains a = d.clients.contains a := by
    rw [ExtTreeMap.contains_eq_isSome_getElem?, ExtTreeMap.contains_eq_isSome_getElem?]
    rcases eq_or_ne a c with rfl | hne
    · rw [h.own, Option.isSome_map]
    · rw [h.others a hne]
  rw [hasEventSequenceHistory, hasEventSequenceHistory, hcontains]
  cases hlive : d.clients.contains a with
  | true => rfl
  | false =>
    rw [hlive] at hcontains
    rw [ExtTreeMap.contains_eq_isSome_getElem?, Option.isSome_eq_false_iff,
      Option.isNone_iff_eq_none] at hlive hcontains
    rw [lastContiguousProcessedSeq, lastContiguousProcessedSeq, hlive, hcontains, h.frontiers]

theorem settled_history {d d' : EventDeduplicator} {event : Event} {outcome : EventOutcomeRecord}
    {frontier : Nat} (h : settleEvent d event outcome = (d', frontier)) (hcore : Core d) :
    Core d' ∧ ∀ c, hasEventSequenceHistory d' c = hasEventSequenceHistory d c := by
  have honly := settleEvent_onlyWindow hcore event outcome
  rw [h] at honly
  exact ⟨honly.core, OnlyWindow.history honly⟩

theorem Reclaimed.untouched
    (h : Reclaimed tracker dedupe tracker') (c : Bytes) (n : NodeId) :
    Untouched dedupe (streamOf tracker c n) (streamOf tracker' c n) c := by
  rcases h with rfl | rfl
  · exact .inl rfl
  · exact streamOf_reclaimDeparted tracker dedupe c n

theorem Ordered.answered (h : Ordered s) {dedupe' : EventDeduplicator} (hcore : Core dedupe')
    (hhistory : ∀ c, hasEventSequenceHistory dedupe' c = hasEventSequenceHistory dedupe c)
    (hreclaimed : Reclaimed s.system.inner.textEditTracker dedupe tracker) :
    Ordered ⟨⟨⟨s.system.inner.session, dedupe', tracker⟩, s.system.attempts⟩, s.reserved,
      s.committed.retain dedupe'⟩ := by
  refine h.carry hcore (.refl h.forest) (fun _ _ _ hmem => hmem) (List.Sublist.refl _) ?_
  intro c n _
  have huntouched := Reclaimed.untouched hreclaimed c n
  rw [Untouched, hhistory]
  exact huntouched

theorem receive_ordered (h : Ordered s) (event : WireEvent) :
    Ordered (observe env s (.processEvent event)) := by
  have hbegins := beginEvent_begins env s.system.inner event
  have hadmitted := h.core.admitEvent (admissionIdentity env event)
  generalize hresult : beginEvent env s.system.inner event = result at hbegins
  obtain ⟨inner, outcome⟩ := result
  simp only at hbegins
  cases hbegins with
  | refused hadmits | duplicate hadmits | pending hadmits =>
    rw [hadmits] at hadmitted
    simp only [observe, step, stepWith, receive, reservation, publication, hresult, finish]
    exact h.answered hadmitted (fun _ => rfl) (.inl rfl)
  | rejected hadmits hreclaimed hsettle =>
    rw [hadmits] at hadmitted
    obtain ⟨hcore, hhistory⟩ := settled_history hsettle hadmitted
    simp only [observe, step, stepWith, receive, reservation, publication, hresult, finish]
    exact h.answered hcore hhistory hreclaimed
  | stuck hadmits hreclaimed =>
    rw [hadmits] at hadmitted
    simp only [observe, step, stepWith, receive, reservation, publication, hresult, finish]
    exact h.answered hadmitted (fun _ => rfl) hreclaimed
  | deciding hadmits hdecode hnode hreclaimed hreserve =>
    rw [hadmits] at hadmitted
    simp only [observe, step, stepWith, receive, reservation, publication, hresult, goOn]
    have hanswered := h.answered hadmitted (fun _ => rfl) hreclaimed
    refine hanswered.grant ?_ ?_
    · rw [ExtTreeMap.contains_eq_isSome_getElem?, hnode]
      rfl
    · rcases reserve_cases _ _ _ _ with ⟨error, hrefused⟩ | ⟨other, granted, hgranted, hgrants⟩
      · rw [hreserve] at hrefused
        simp at hrefused
      · rw [hreserve] at hgranted
        simp only [Prod.mk.injEq, Except.ok.injEq] at hgranted
        rw [hgranted.1, hgranted.2]
        exact hgrants
  | dispatching hadmits hdecode =>
    rw [hadmits] at hadmitted
    simp only [observe, step, stepWith, receive, reservation, publication, hresult, goOn]
    refine h.carry hadmitted (.refl h.forest) ?_ (List.Sublist.refl _) fun _ _ _ => .inl rfl
    intro other request generation hmem
    simpa using hmem

theorem Ordered.drop (h : Ordered s) (place : Nat)
    (hcore : Core inner.dedupe) (hsession : inner.session = s.system.inner.session)
    (hstreams : ∀ c n, streamOf inner.textEditTracker c n =
      streamOf s.system.inner.textEditTracker c n) :
    Ordered ⟨⟨inner, s.system.attempts.eraseIdx place⟩, s.reserved,
      s.committed.retain inner.dedupe⟩ := by
  have hstore : Outlives s.system.inner.session.store inner.session.store := by
    rw [hsession]
    exact .refl h.forest
  have hsublist := List.eraseIdx_sublist s.system.attempts place
  exact h.carry hcore hstore (fun _ _ _ hmem => hsublist.mem hmem) (hsublist.filterMap held)
    fun c n _ => .inl (hstreams c n)

theorem publication_decided {s : EventSystem} {decision : TextEditDecision}
    (hplace : s.attempts[place]? = some ⟨event, .deciding request generation⟩) :
    publication env s (.decided place decision) =
      if (step env s (.decided place decision)).inner.session.store = s.inner.session.store then
        none
      else some (event.clientInstanceId, request.nodeId, request.editSeq.get) := by
  simp only [publication, hplace]

theorem Ordered.idle (h : Ordered s) :
    Ordered ⟨s.system, s.reserved, s.committed.retain s.system.inner.dedupe⟩ :=
  h.carry h.core (.refl h.forest) (fun _ _ _ hmem => hmem) (List.Sublist.refl _)
    fun _ _ _ => .inl rfl

theorem decide_ordered (h : Ordered s) (place : Nat) (decision : TextEditDecision) :
    Ordered (observe env s (.decided place decision)) := by
  cases hplace : s.system.attempts[place]? with
  | none =>
    simp only [observe, step, stepWith, decideCall, reservation, publication, hplace]
    exact h.idle
  | some attempt =>
    obtain ⟨event, phase⟩ := attempt
    cases phase with
    | dispatching kind =>
      simp only [observe, step, stepWith, decideCall, reservation, publication, hplace]
      exact h.idle
    | deciding request generation =>
      have hdecides := commitTextEditDecision_decides env s.system.inner event request
        generation decision
      generalize hresult : commitTextEditDecision env s.system.inner event request generation
        decision = result at hdecides
      obtain ⟨inner, outcome⟩ := result
      simp only at hdecides
      have hsame : ∀ {attempts : List Attempt} {kind : HandlerDispatchKind}
          (other : WireEvent) (otherRequest : TextEditRequest) (otherGeneration : Nat),
          (⟨other, .deciding otherRequest otherGeneration⟩ : Attempt) ∈
            ⟨event, .dispatching kind⟩ :: attempts →
              (⟨other, .deciding otherRequest otherGeneration⟩ : Attempt) ∈ attempts := by
        intro attempts kind other otherRequest otherGeneration hmem
        simpa using hmem
      cases hdecides with
      | late hlate | faulted =>
        simp only [observe, publication_decided hplace, step, stepWith, decideCall,
          reservation, hplace, hresult, finish, if_true]
        exact h.drop place h.core rfl fun _ _ => rfl
      | rejected hsettle =>
        obtain ⟨hcore, -⟩ := settled_history hsettle h.core
        simp only [observe, publication_decided hplace, step, stepWith, decideCall,
          reservation, hplace, hresult, finish, if_true]
        exact h.release hplace hcore (.refl h.forest) rfl (fun _ _ _ hmem => hmem)
          (fun last => ⟨Nat.le_max_left _ _, Nat.le_refl _⟩)
          (streamOf_markTerminal _ _ _ _)
      | accepted hpublishes =>
        obtain ⟨ops, hcommits⟩ := hpublishes.commits
        simp only [observe, publication_decided hplace, step, stepWith, decideCall,
          reservation, hplace, hresult, goOn, if_neg hcommits.store_ne]
        exact h.publish hplace h.core rfl hsame hpublishes
      | stuck hpublishes =>
        obtain ⟨ops, hcommits⟩ := hpublishes.commits
        simp only [observe, publication_decided hplace, step, stepWith, decideCall,
          reservation, hplace, hresult, finish, if_neg hcommits.store_ne]
        exact h.publish hplace h.core rfl (fun _ _ _ hmem => hmem) hpublishes
      | declined hpublishes hsettle =>
        obtain ⟨hcore, -⟩ := settled_history hsettle h.core
        obtain ⟨ops, hcommits⟩ := hpublishes.commits
        simp only [observe, publication_decided hplace, step, stepWith, decideCall,
          reservation, hplace, hresult, finish, if_neg hcommits.store_ne]
        exact h.publish hplace hcore rfl (fun _ _ _ hmem => hmem) hpublishes

theorem abandon_ordered (h : Ordered s) (place : Nat) (message : String) :
    Ordered (observe env s (.policyPanicked place message)) := by
  cases hplace : s.system.attempts[place]? with
  | none =>
    simp only [observe, step, stepWith, abandonCall, reservation, publication, hplace]
    exact h.idle
  | some attempt =>
    obtain ⟨event, phase⟩ := attempt
    cases phase with
    | dispatching kind =>
      simp only [observe, step, stepWith, abandonCall, reservation, publication, hplace]
      exact h.idle
    | deciding request generation =>
      simp only [observe, step, stepWith, abandonCall, reservation, publication, hplace,
        finish]
      exact h.release hplace (abandonEvent_onlyWindow h.core (identityOf event)).core
        (.refl h.forest) rfl (fun _ _ _ hmem => hmem)
        (fun last => ⟨Nat.le_refl _, Nat.le_max_left _ _⟩)
        (streamOf_abandonReservation _ _ _ _)

theorem finishDispatch_keeps (env : Externals)
    (hcore : Core inner.dedupe) (event : WireEvent) (kind : HandlerDispatchKind)
    (dispatch : Dispatch) :
    Core (finishDispatch env inner event kind dispatch).1.dedupe ∧
      (finishDispatch env inner event kind dispatch).1.session = inner.session ∧
      ∀ c n, streamOf (finishDispatch env inner event kind dispatch).1.textEditTracker c n =
        streamOf inner.textEditTracker c n := by
  have hsettled := fun outcome => (settleEvent_onlyWindow hcore (identityOf event) outcome).core
  have habandoned := (abandonEvent_onlyWindow hcore (identityOf event)).core
  cases kind with
  | ordinary =>
    cases dispatch with
    | ok | failed message => exact ⟨hsettled _, rfl, fun _ _ => rfl⟩
    | panicked message => exact ⟨habandoned, rfl, fun _ _ => rfl⟩
  | committedTextEdit =>
    have hfinished := streamOf_finish inner.textEditTracker event.clientInstanceId event.eventSeq
    cases dispatch with
    | ok | failed message | panicked message => exact ⟨hsettled _, rfl, hfinished⟩

theorem settle_ordered (h : Ordered s) (place : Nat) (dispatch : Dispatch) :
    Ordered (observe env s (.dispatched place dispatch)) := by
  cases hplace : s.system.attempts[place]? with
  | none =>
    simp only [observe, step, stepWith, settleCall, reservation, publication, hplace]
    exact h.idle
  | some attempt =>
    obtain ⟨event, phase⟩ := attempt
    cases phase with
    | deciding request generation =>
      simp only [observe, step, stepWith, settleCall, reservation, publication, hplace]
      exact h.idle
    | dispatching kind =>
      have hkeeps := finishDispatch_keeps env h.core event kind dispatch
      generalize hresult : finishDispatch env s.system.inner event kind dispatch = result
        at hkeeps
      obtain ⟨inner, outcome⟩ := result
      obtain ⟨hcore, hsession, hstreams⟩ := hkeeps
      cases outcome with
      | ok outcome | error e =>
        simp only [observe, step, stepWith, settleCall, reservation, publication, hplace,
          hresult, finish]
        exact h.drop place hcore hsession hstreams

theorem Ordered.advance (h : Ordered s) {session : Session} {ops : List Operation}
    (hcommits : CommitsOrKeeps s.system.inner.session ops session) :
    Ordered ⟨⟨EventCalls.advance s.system.inner session ops, s.system.attempts⟩, s.reserved,
      s.committed.retain s.system.inner.dedupe⟩ := by
  refine h.carry h.core (hcommits.outlives h.forest) (fun _ _ _ hmem => hmem)
    (List.Sublist.refl _) ?_
  intro c n hlive
  refine .inl ?_
  change streamOf (if ops.any deletesNode then _ else _) c n = _
  split
  · exact streamOf_reclaimMissing _ hlive c
  · rfl

theorem observe_ordered (h : Ordered s) (input : Input) :
    Ordered (observe env s input) := by
  cases input with
  | processEvent event => exact receive_ordered h event
  | decided place decision => exact decide_ordered h place decision
  | policyPanicked place message => exact abandon_ordered h place message
  | dispatched place dispatch => exact settle_ordered h place dispatch
  | transaction f => exact h.advance (transaction_commitsOrKeeps _ f)
  | commitTransaction tx => exact h.advance (wire_commitsOrKeeps _ tx)

theorem started_ordered (limits : StoreLimits) (capacity maxEntries maxWindows maxStreams : Nat) :
    Ordered (started limits capacity maxEntries maxWindows maxStreams) where
  core := core_withLimits maxEntries maxWindows
  forest := storeForest_empty limits 0
  known := by
    intro event request generation hmem
    simp [started, opened] at hmem
  pending := by
    intro event request generation hmem
    simp [started, opened] at hmem
  distinct := List.nodup_nil
  past := by
    intro c n seq hseq
    simp [started] at hseq
  increasing := fun _ _ => List.Pairwise.nil

theorem decides_newest (h : Ordered s) (input : Input) :
    DecidesNewest env s input := by
  rintro place decision event request generation rfl hplace
  have hdecides := commitTextEditDecision_decides env s.system.inner event request generation
    decision
  generalize hresult : commitTextEditDecision env s.system.inner event request generation
    decision = result at hdecides
  obtain ⟨inner, outcome⟩ := result
  simp only at hdecides
  cases hdecides with
  | late hlate | rejected hsettle | faulted =>
    refine .inr ?_
    simp only [observe, step, stepWith, decideCall, hplace, hresult, finish]
  | accepted hpublishes | stuck hpublishes | declined hpublishes hsettle =>
    exact .inl (h.newest hplace hpublishes).1

/-- In every run of a session, whatever its policies decide, the edit sequences that
reach the store on one stream increase while the client's event history is kept, and
every decision that reaches it is the newest reservation of its stream. -/
theorem text_edits_never_go_backwards (env : Externals) (limits : StoreLimits)
    (capacity maxEntries maxWindows maxStreams : Nat) (inputs : List Input) :
    EveryState (observe env) (fun s => ∀ c n, (s.committed c n).Pairwise (· > ·))
        (started limits capacity maxEntries maxWindows maxStreams) inputs ∧
      EveryStep (observe env) (DecidesNewest env)
        (started limits capacity maxEntries maxWindows maxStreams) inputs := by
  have hrun : EveryStep (observe env) (fun _ _ => True)
      (started limits capacity maxEntries maxWindows maxStreams) inputs :=
    everyStep_of_forall (fun _ _ => trivial) _ _
  have hinit := started_ordered limits capacity maxEntries maxWindows maxStreams
  refine ⟨?_, ?_⟩
  · have hordered : EveryState (observe env) Ordered _ inputs :=
      hrun.everyState (fun s input h _ => observe_ordered h input) hinit
    exact hordered.mono fun s h => h.increasing
  · exact EveryStep.of_invariant (P := Ordered) (fun s input h _ => observe_ordered h input)
      (fun s input h _ => decides_newest h input) hrun hinit

end Srui.Sessiond.TextEditOrder

import Srui.Client.LaneAccounts

/-!
The chunks of the receive loop and their acknowledgements, and what the loop and its lane promise:
nothing lost, nothing reordered, every chunk acknowledged once.
-/

namespace Srui.Client.TransactionLanes

open Basic.Runs Client.OwnershipFences

variable {T M : Type}

variable {progress : TaskProgress}

def TaskProgress.left : TaskProgress → Nat
  | .awaitingPredecessor => 14
  | .sleeping => 13
  | .awaitingAdmission => 12
  | .admissionOwned _ => 11
  | .admissionLeased _ => 10
  | .admitted => 9
  | .owned _ => 8
  | .fenced => 7
  | .handling => 6
  | .committing _ => 5
  | .adopted _ _ => 4
  | .draining _ _ => 3
  | .committed => 2
  | .caughtUp => 1
  | .returned | .failed => 0

namespace IngressLane

variable {s : IngressLane T M}

/-- The chunks: each is before the loop, before its acknowledging task, or acknowledged. -/
structure ChunksKept (s : IngressLane T M) : Prop where
  numbered : s.chunks.map Prod.fst = List.range s.chunks.length
  each : (s.acknowledged ++ (s.acknowledgements.map fun a => (a.index, a.byteCount)) ++
    (s.receiveLoop.chunk?.map fun chunk => (chunk.index, chunk.byteCount)).toList).Perm s.chunks
  held : ∀ queued ∈ s.transactionIngressTasks,
    (∃ chunk, s.receiveLoop.chunk? = some chunk ∧ chunk.index = queued.chunk ∧
      queued.taskID ∈ chunk.transactionCompletions) ∨
    ∃ a ∈ s.acknowledgements, a.index = queued.chunk ∧ queued.taskID ∈ a.transactionCompletions

namespace ChunksKept

def key (chunk : ReceivedChunk T M) : Nat × Nat × List Nat :=
  (chunk.index, chunk.byteCount, chunk.transactionCompletions)

variable (h : s.ChunksKept)

include h

theorem congr {t : IngressLane T M} (hchunks : t.chunks = s.chunks)
    (hacknowledged : t.acknowledged = s.acknowledged)
    (hacknowledgements : t.acknowledgements = s.acknowledgements)
    (hloop : t.receiveLoop.chunk?.map key = s.receiveLoop.chunk?.map key)
    (htasks : ∀ queued ∈ t.transactionIngressTasks, ∃ queued' ∈ s.transactionIngressTasks,
      queued'.taskID = queued.taskID ∧ queued'.chunk = queued.chunk) : t.ChunksKept where
  numbered := by
    rw [hchunks]
    exact h.numbered
  each := by
    have hpair : (t.receiveLoop.chunk?.map fun chunk => (chunk.index, chunk.byteCount)) =
        s.receiveLoop.chunk?.map fun chunk => (chunk.index, chunk.byteCount) := by
      have hfst := congrArg (Option.map fun k : Nat × Nat × List Nat => (k.1, k.2.1)) hloop
      rw [Option.map_map, Option.map_map] at hfst
      exact hfst
    rw [hchunks, hacknowledged, hacknowledgements, hpair]
    exact h.each
  held := by
    intro queued hmem
    obtain ⟨queued', hmem', hid, hchunk⟩ := htasks queued hmem
    rcases h.held queued' hmem' with ⟨chunk, hsome, hindex, hcompletion⟩ | hpending
    · left
      rw [hsome, Option.map_some, Option.map_eq_some_iff] at hloop
      obtain ⟨chunk', hsome', hkey⟩ := hloop
      obtain ⟨hindex', -, hcompletions⟩ : chunk'.index = chunk.index ∧
          chunk'.byteCount = chunk.byteCount ∧
          chunk'.transactionCompletions = chunk.transactionCompletions := by
        simpa [key] using hkey
      refine ⟨chunk', hsome', ?_, ?_⟩
      · rw [hindex', hindex, hchunk]
      · rw [hcompletions, ← hid]
        exact hcompletion
    · right
      rw [hacknowledgements, ← hid, ← hchunk]
      exact hpending

theorem of_same {t : IngressLane T M} (hchunks : t.chunks = s.chunks)
    (hacknowledged : t.acknowledged = s.acknowledged)
    (hacknowledgements : t.acknowledgements = s.acknowledgements)
    (hloop : t.receiveLoop.chunk?.map key = s.receiveLoop.chunk?.map key)
    (htasks : t.transactionIngressTasks = s.transactionIngressTasks) : t.ChunksKept :=
  h.congr hchunks hacknowledged hacknowledgements hloop fun queued hmem =>
    ⟨queued, htasks ▸ hmem, rfl, rfl⟩

theorem receiveChunk (byteCount : Nat) (messages : List (Message T M)) :
    (s.receiveChunk byteCount messages).ChunksKept := by
  unfold IngressLane.receiveChunk
  split
  · rename_i hloop
    have heach := h.each
    rw [hloop] at heach
    refine ⟨?_, ?_, ?_⟩
    · change (s.chunks ++ [(s.chunks.length, byteCount)]).map Prod.fst =
        List.range (s.chunks ++ [(s.chunks.length, byteCount)]).length
      rw [List.map_append, h.numbered, List.length_append, List.length_singleton,
        List.range_succ]
      rfl
    · change ((_ ++ _) ++ [(s.chunks.length, byteCount)]).Perm
        (s.chunks ++ [(s.chunks.length, byteCount)])
      refine List.Perm.append_right _ ?_
      simpa [ReceiveLoop.chunk?] using heach
    · intro queued hmem
      rcases h.held queued hmem with ⟨chunk, hsome, -⟩ | hpending
      · rw [hloop] at hsome
        cases hsome
      · exact .inr hpending
  · exact h

theorem finishChunk : s.finishChunk.ChunksKept := by
  unfold IngressLane.finishChunk
  split
  · rename_i chunk hloop
    have heach := h.each
    rw [hloop] at heach
    change (s.acknowledged ++ s.acknowledgements.map (fun a => (a.index, a.byteCount)) ++
      [(chunk.index, chunk.byteCount)]).Perm s.chunks at heach
    split
    · by_cases hcompletions : chunk.transactionCompletions = []
      · rw [if_pos hcompletions]
        refine ⟨h.numbered, ?_, ?_⟩
        · change ((s.acknowledged ++ [(chunk.index, chunk.byteCount)]) ++ _ ++ []).Perm s.chunks
          refine List.Perm.trans ?_ heach
          rw [List.append_nil, List.append_assoc, List.append_assoc]
          exact List.Perm.append_left _ List.perm_append_comm
        · intro queued hmem
          rcases h.held queued hmem with ⟨chunk', hsome, -, hcompletion⟩ | hpending
          · rw [hloop] at hsome
            obtain rfl := Option.some.inj hsome
            rw [hcompletions] at hcompletion
            cases hcompletion
          · exact .inr hpending
      · rw [if_neg hcompletions]
        refine ⟨h.numbered, ?_, ?_⟩
        · change (s.acknowledged ++ (s.acknowledgements ++ [_]).map _ ++ []).Perm s.chunks
          rw [List.append_nil, List.map_append, ← List.append_assoc]
          exact heach
        · intro queued hmem
          right
          rcases h.held queued hmem with ⟨chunk', hsome, hindex, hcompletion⟩ | ⟨a, ha, hpending⟩
          · rw [hloop] at hsome
            obtain rfl := Option.some.inj hsome
            exact ⟨_, List.mem_append_right _ List.mem_cons_self, hindex, hcompletion⟩
          · exact ⟨a, List.mem_append_left _ ha, hpending⟩
    · exact h
  · exact h

theorem enqueueIncomingTransaction :
    s.enqueueIncomingTransaction.ChunksKept := by
  unfold IngressLane.enqueueIncomingTransaction
  split
  · rename_i chunk hloop
    have heach := h.each
    rw [hloop] at heach
    split
    · split_ifs
      · refine ⟨h.numbered, heach, ?_⟩
        intro queued hmem
        rcases List.mem_append.mp hmem with hmem | hmem
        · rcases h.held queued hmem with ⟨chunk', hsome, hindex, hcompletion⟩ | hpending
          · rw [hloop] at hsome
            obtain rfl := Option.some.inj hsome
            exact .inl ⟨_, rfl, hindex, List.mem_append_left _ hcompletion⟩
          · exact .inr hpending
        · rw [List.mem_singleton.mp hmem]
          exact .inl ⟨_, rfl, rfl, List.mem_append_right _ List.mem_cons_self⟩
      · exact h.of_same rfl rfl rfl rfl rfl
    · exact h
  · exact h

theorem completionFinished (index : Nat) :
    (s.completionFinished index).ChunksKept := by
  refine ⟨h.numbered, ?_, ?_⟩
  · have hkeys : ((s.completionFinished index).acknowledgements.map fun a =>
        (a.index, a.byteCount)) = s.acknowledgements.map fun a => (a.index, a.byteCount) := by
      change (s.acknowledgements.map _).map _ = _
      rw [List.map_map]
      apply List.map_congr_left
      intro a _
      change (ChunkAcknowledgement.index (if _ then _ else _),
        ChunkAcknowledgement.byteCount (if _ then _ else _)) = _
      split_ifs <;> rfl
    rw [hkeys]
    exact h.each
  · intro queued hmem
    rcases h.held queued hmem with hchunk | ⟨a, ha, hindex, hcompletion⟩
    · exact .inl hchunk
    · refine .inr ⟨_, List.mem_map_of_mem ha, ?_⟩
      split_ifs with hnext
      · refine ⟨hindex, ?_⟩
        change queued.taskID ∈ a.transactionCompletions.tail
        cases hcompletions : a.transactionCompletions with
        | nil =>
          rw [hcompletions] at hcompletion
          cases hcompletion
        | cons first others =>
          rw [hcompletions] at hcompletion hnext
          refine (List.mem_cons.mp hcompletion).resolve_left ?_
          rintro rfl
          have hqueued := (Sound.not_finished_iff (s := s) queued.taskID).mpr
            (List.mem_map_of_mem hmem)
          rw [List.head?_cons, hqueued] at hnext
          exact Bool.false_ne_true hnext.2
      · exact ⟨hindex, hcompletion⟩

theorem acknowledgeReceived (index : Nat) :
    (s.acknowledgeReceived index).ChunksKept := by
  unfold IngressLane.acknowledgeReceived
  split
  · rename_i a hfind
    obtain ⟨hdue, before, after, heq, hbefore⟩ := List.find?_eq_some_iff_append.mp hfind
    have herase : s.acknowledgements.eraseP (·.isDue index) = before ++ after := by
      rw [heq, List.eraseP_append_right _ (fun b hb => by simpa using hbefore b hb)]
      exact congrArg (before ++ ·) (List.eraseP_cons_of_pos hdue)
    rw [herase]
    refine ⟨h.numbered, ?_, ?_⟩
    · refine List.Perm.trans ?_ h.each
      refine List.Perm.append_right _ ?_
      rw [heq, List.map_append, List.map_append, List.map_cons, List.append_assoc]
      refine List.Perm.append_left _ ?_
      rw [List.singleton_append]
      exact List.perm_middle.symm
    · intro queued hmem
      rcases h.held queued hmem with hchunk | ⟨b, hb, hpending⟩
      · exact .inl hchunk
      · refine .inr ⟨b, ?_, hpending⟩
        rw [heq] at hb
        rcases List.mem_append.mp hb with hb | hb
        · exact List.mem_append_left _ hb
        · rcases List.mem_cons.mp hb with rfl | hb
          · have hempty : b.transactionCompletions = [] := by
              have hparts := (Bool.and_eq_true _ _).mp hdue
              exact List.isEmpty_iff.mp hparts.2
            rw [hempty] at hpending
            cases hpending.2
          · exact List.mem_append_right _ hb
  · exact h

theorem reloop (loop : ReceiveLoop T M) (hloop : loop.chunk?.map key = s.receiveLoop.chunk?.map key)
    (connection : ConnectionState) (log : List (Entry T M)) (ended : Bool) :
    ({ s with
      connection := connection
      receiveLoop := loop
      log := log
      ended := ended } : IngressLane T M).ChunksKept :=
  h.of_same rfl rfl rfl hloop rfl

theorem awaitTransactionIngressQueueCapacity :
    s.awaitTransactionIngressQueueCapacity.ChunksKept := by
  unfold IngressLane.awaitTransactionIngressQueueCapacity
  split
  · rename_i chunk hloop
    split
    · split
      · exact h.reloop (.awaitingOldest chunk _) (by rw [hloop]; rfl) _ _ _
      · exact h.reloop (.enqueueing chunk) (by rw [hloop]; rfl) _ _ _
    · exact h
  · exact h

theorem oldestFinished : s.oldestFinished.ChunksKept := by
  unfold IngressLane.oldestFinished
  split
  · rename_i chunk oldest hloop
    split_ifs
    · exact h.reloop (.dispatching chunk) (by rw [hloop]; rfl) _ _ _
    · exact h
  · exact h

theorem awaitQueuedTransactionLane :
    s.awaitQueuedTransactionLane.ChunksKept := by
  unfold IngressLane.awaitQueuedTransactionLane
  split
  · rename_i chunk hloop
    split
    · split_ifs
      · exact h.reloop (.awaitingTail chunk _) (by rw [hloop]; rfl) _ _ _
      · exact h
    · exact h
  · exact h

theorem handleOrderedMessage : s.handleOrderedMessage.ChunksKept := by
  unfold IngressLane.handleOrderedMessage
  split
  · rename_i chunk tail hloop
    split
    · rename_i message rest _
      split_ifs
      · exact h.reloop (.handling { chunk with remaining := rest } message _)
          (by rw [hloop]; rfl) _ _ _
      · exact h.reloop s.receiveLoop rfl _ _ _
      · exact h
    · exact h
  · exact h

theorem resetTextEditingForReplacement (sessionIncarnation : Nat) :
    (s.resetTextEditingForReplacement sessionIncarnation).ChunksKept := by
  unfold IngressLane.resetTextEditingForReplacement
  split
  · rename_i chunk resync ownership hloop
    exact h.reloop (.adopted chunk (.serverResyncRequired resync) ownership _)
      (by rw [hloop]; rfl) _ _ _
  · exact h

theorem advanceSessionIncarnation :
    s.advanceSessionIncarnation.ChunksKept := by
  unfold IngressLane.advanceSessionIncarnation
  split
  · rename_i chunk message previous next hloop
    split_ifs
    · exact h.reloop (.replaced chunk message) (by rw [hloop]; rfl) _ _ _
    · exact h.reloop s.receiveLoop rfl _ _ _
    · exact h.reloop (.draining chunk message previous next) (by rw [hloop]; rfl) _ _ _
    · exact h.reloop s.receiveLoop rfl _ _ _
  · exact h

theorem finishAdvance : s.finishAdvance.ChunksKept := by
  unfold IngressLane.finishAdvance
  split
  · rename_i chunk message previous next hloop
    split_ifs
    · exact h.reloop (.replaced chunk message) (by rw [hloop]; rfl) _ _ _
    · exact h.reloop s.receiveLoop rfl _ _ _
  · exact h

theorem returnFromOrderedMessage : s.returnFromOrderedMessage.ChunksKept := by
  unfold IngressLane.returnFromOrderedMessage
  split
  · rename_i chunk message ownership hloop
    exact h.reloop (.dispatching chunk) (by rw [hloop]; rfl) _ _ _
  · rename_i chunk message hloop
    exact h.reloop (.dispatching chunk) (by rw [hloop]; rfl) _ _ _
  · exact h

theorem handleWelcome : s.handleWelcome.ChunksKept := by
  unfold IngressLane.handleWelcome
  split
  · rename_i chunk hloop
    split
    · rename_i rest _
      split_ifs
      · exact h.reloop (.dispatching { chunk with remaining := rest }) (by rw [hloop]; rfl) _ _ _
      · exact h.reloop s.receiveLoop rfl _ _ _
    · exact h
  · exact h

theorem handleOther : s.handleOther.ChunksKept := by
  unfold IngressLane.handleOther
  split
  · rename_i chunk hloop
    split
    · rename_i rest _
      exact h.reloop (.dispatching { chunk with remaining := rest }) (by rw [hloop]; rfl) _ _ _
    · exact h
  · exact h

theorem task (taskID : Nat) (action : TaskSection) :
    (s.task taskID action).ChunksKept := by
  unfold IngressLane.task
  split
  · split
    · rename_i connection progress _
      refine h.congr rfl rfl rfl rfl ?_
      intro queued hmem
      obtain ⟨queued', hmem', rfl⟩ := List.mem_map.mp hmem
      refine ⟨queued', hmem', ?_⟩
      split_ifs
      · exact ⟨rfl, rfl⟩
      · exact ⟨rfl, rfl⟩
    · exact h
  · exact h

theorem finishQueuedTransaction (taskID : Nat) :
    (s.finishQueuedTransaction taskID).ChunksKept := by
  unfold IngressLane.finishQueuedTransaction
  split
  · rename_i queued _
    by_cases hreturned : queued.progress = .returned
    · rw [if_pos hreturned]
      exact h.congr rfl rfl rfl rfl fun other hmem => ⟨other, (List.mem_filter.mp hmem).1, rfl, rfl⟩
    · rw [if_neg hreturned]
      exact h
  · exact h

theorem step (action : Section T M) : (s.step action).ChunksKept := by
  unfold IngressLane.step
  split_ifs
  · exact h
  cases action with
  | receiveChunk byteCount messages => exact h.receiveChunk byteCount messages
  | awaitTransactionIngressQueueCapacity => exact h.awaitTransactionIngressQueueCapacity
  | oldestFinished => exact h.oldestFinished
  | enqueueIncomingTransaction => exact h.enqueueIncomingTransaction
  | awaitQueuedTransactionLane => exact h.awaitQueuedTransactionLane
  | handleOrderedMessage => exact h.handleOrderedMessage
  | resetTextEditingForReplacement sessionIncarnation =>
    exact h.resetTextEditingForReplacement sessionIncarnation
  | advanceSessionIncarnation => exact h.advanceSessionIncarnation
  | finishAdvance => exact h.finishAdvance
  | returnFromOrderedMessage => exact h.returnFromOrderedMessage
  | handleWelcome => exact h.handleWelcome
  | handleOther => exact h.handleOther
  | finishChunk => exact h.finishChunk
  | task taskID action => exact h.task taskID action
  | finishQueuedTransaction taskID => exact h.finishQueuedTransaction taskID
  | completionFinished index => exact h.completionFinished index
  | acknowledgeReceived index => exact h.acknowledgeReceived index
  | endConnection => exact h.reloop s.receiveLoop rfl _ _ _

theorem nodup :
    ((s.acknowledged ++ (s.acknowledgements.map fun a => (a.index, a.byteCount)) ++
      (s.receiveLoop.chunk?.map fun chunk => (chunk.index, chunk.byteCount)).toList).map
        Prod.fst).Nodup :=
  (h.each.map Prod.fst).nodup_iff.mpr (h.numbered ▸ List.nodup_range)

theorem acknowledged_nodup : (s.acknowledged.map Prod.fst).Nodup := by
  have hnodup := h.nodup
  rw [List.map_append, List.map_append, List.append_assoc] at hnodup
  exact (List.nodup_append.mp hnodup).1

theorem not_queued_of_acknowledged {pair : Nat × Nat} (hpair : pair ∈ s.acknowledged)
    {queued : QueuedTransaction T} (hqueued : queued ∈ s.transactionIngressTasks) :
    queued.chunk ≠ pair.1 := by
  have hnodup := h.nodup
  rw [List.append_assoc, List.map_append, List.nodup_append] at hnodup
  intro heq
  refine hnodup.2.2 pair.1 (List.mem_map_of_mem hpair) queued.chunk ?_ heq.symm
  rw [List.map_append, List.mem_append]
  rcases h.held queued hqueued with ⟨chunk, hsome, hindex, -⟩ | ⟨a, ha, hindex, -⟩
  · right
    rw [hsome]
    exact List.mem_singleton.mpr hindex.symm
  · left
    rw [List.map_map]
    exact List.mem_map.mpr ⟨a, ha, hindex⟩

theorem not_dispatched_of_acknowledged {pair : Nat × Nat} (hpair : pair ∈ s.acknowledged)
    {chunk : ReceivedChunk T M} (hchunk : s.receiveLoop.chunk? = some chunk) :
    chunk.index ≠ pair.1 := by
  have hnodup := h.nodup
  rw [List.append_assoc, List.map_append, List.nodup_append] at hnodup
  intro heq
  refine hnodup.2.2 pair.1 (List.mem_map_of_mem hpair) chunk.index ?_ heq.symm
  rw [List.map_append, List.mem_append, hchunk]
  exact .inr List.mem_cons_self

end ChunksKept

namespace Sound

variable {rest : List (QueuedTransaction T)} {oldest : QueuedTransaction T}

end Sound

def outstanding (acknowledgements : List ChunkAcknowledgement) : Nat :=
  (acknowledgements.map fun a => a.transactionCompletions.length + 1).sum

structure Kept (s : IngressLane T M) : Prop where
  /-- Transactions and the messages that replace the replica are handled one after the other, in
  the order they came, and none is missing between the handled and the ones to come. -/
  accounted : s.Accounted
  oneAtATime : (s.openedTransactions ++ s.receiveLoop.opened).length ≤ 1
  bounded : s.transactionIngressTasks.length ≤ maxQueuedIngressTransactions
  tail : s.transactionIngressTail = none ↔ s.transactionIngressTasks = []
  chunks : s.ChunksKept
  once : (s.acknowledged.map Prod.fst).Nodup
  finished : ∀ pair ∈ s.acknowledged,
    (∀ queued ∈ s.transactionIngressTasks, queued.chunk ≠ pair.1) ∧
    ∀ chunk, s.receiveLoop.chunk? = some chunk → chunk.index ≠ pair.1

theorem Sound.kept (h : s.Sound) (hchunks : s.ChunksKept) : s.Kept where
  accounted := h.accounted
  oneAtATime := by
    cases htasks : s.transactionIngressTasks with
    | nil =>
      have hnone : s.openedTransactions = [] := by
        rw [openedTransactions, htasks]
        rfl
      rw [hnone, List.nil_append]
      cases s.receiveLoop <;> first | exact Nat.zero_le 1 | exact le_rfl
    | cons oldest rest =>
      have hloop := h.opened_eq_nil (by rw [htasks]; exact List.cons_ne_nil oldest rest)
      rw [hloop, List.append_nil, openedTransactions_eq htasks (h.follows oldest rest htasks).2]
      split_ifs
      · exact le_rfl
      · exact Nat.zero_le 1
  bounded := h.bounded
  tail := by
    rw [h.tail, List.getLast?_eq_none_iff, ← h.order, List.map_eq_nil_iff]
  chunks := hchunks
  once := hchunks.acknowledged_nodup
  finished := by
    intro pair hpair
    exact ⟨fun queued hqueued => hchunks.not_queued_of_acknowledged hpair hqueued,
      fun chunk hchunk => hchunks.not_dispatched_of_acknowledged hpair hchunk⟩

end IngressLane

def connected (T M : Type) (context : SessionContinuityContext) (binding sessionIncarnation : Nat)
    (phase : ProtocolPhase) : IngressLane T M where
  connection := {
    context := { context with activeOwnership := some ⟨binding, sessionIncarnation⟩ }
    outboxConnectionBinding := binding
    outboxSessionIncarnation := sessionIncarnation
    phase := phase
    pendingResync := false }

end Srui.Client.TransactionLanes

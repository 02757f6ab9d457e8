import Srui.Client.TransactionLanes

/-!
What the transaction lane keeps: tasks are chained in the order of their transactions, only the
oldest moves, and every sequenced message is settled, being handled, queued or still to come.
-/

namespace Srui.Client.TransactionLanes

open Client.OwnershipFences

variable {T M : Type}

/-- Each of these tasks awaits the one before it. -/
def Follows : Option Nat → List (QueuedTransaction T) → Prop
  | _, [] => True
  | last, queued :: rest =>
    queued.predecessor = last ∧ queued.progress = .awaitingPredecessor ∧
      Follows (some queued.taskID) rest

variable {tasks : List (QueuedTransaction T)} {last : Option Nat}

theorem Follows.awaits
    (h : Follows last tasks) {queued : QueuedTransaction T} (hmem : queued ∈ tasks) :
    queued.progress = .awaitingPredecessor ∧
      (queued.predecessor = last ∨
        ∃ earlier ∈ tasks, queued.predecessor = some earlier.taskID) := by
  induction tasks generalizing last with
  | nil => exact absurd hmem List.not_mem_nil
  | cons first rest ih =>
    obtain ⟨hpredecessor, hprogress, hrest⟩ := h
    rcases List.mem_cons.mp hmem with rfl | hmem
    · exact ⟨hprogress, .inl hpredecessor⟩
    · obtain ⟨hawaits, hlast | ⟨earlier, hearlier, heq⟩⟩ := ih hrest hmem
      · exact ⟨hawaits, .inr ⟨first, List.mem_cons_self, hlast⟩⟩
      · exact ⟨hawaits, .inr ⟨earlier, List.mem_cons_of_mem first hearlier, heq⟩⟩

theorem Follows.concat
    (h : Follows last tasks) {queued : QueuedTransaction T}
    (hprogress : queued.progress = .awaitingPredecessor)
    (hpredecessor : queued.predecessor = ((tasks.map (·.taskID)).getLast?).or last) :
    Follows last (tasks ++ [queued]) := by
  induction tasks generalizing last with
  | nil => exact ⟨by simpa using hpredecessor, hprogress, trivial⟩
  | cons first rest ih =>
    refine ⟨h.1, h.2.1, ih h.2.2 ?_⟩
    rw [hpredecessor, List.map_cons, List.getLast?_cons]
    cases (rest.map (·.taskID)).getLast? <;> rfl

theorem Follows.stages
    (h : Follows last tasks) :
    tasks.filter (·.progress.isHandling) = [] ∧ tasks.filter (·.progress.isWaiting) = tasks := by
  constructor
  · apply List.filter_eq_nil_iff.mpr
    intro queued hmem
    rw [(h.awaits hmem).1]
    exact Bool.false_ne_true
  · apply List.filter_eq_self.mpr
    intro queued hmem
    rw [(h.awaits hmem).1]
    rfl

namespace ReceiveLoop

def chunk? : ReceiveLoop T M → Option (ReceivedChunk T M)
  | .awaitingChunk => none
  | .dispatching chunk | .awaitingOldest chunk _ | .enqueueing chunk | .awaitingTail chunk _
  | .handling chunk _ _ | .adopted chunk _ _ _ | .draining chunk _ _ _ | .replaced chunk _ =>
    some chunk

def remaining (loop : ReceiveLoop T M) : List (Message T M) :=
  match loop.chunk? with
  | some chunk => chunk.remaining
  | none => []

def opened : ReceiveLoop T M → List (Message T M)
  | .handling _ message _ | .adopted _ message _ _ | .draining _ message _ _
  | .replaced _ message => [message]
  | _ => []

def Aligned (c : ConnectionState) : ReceiveLoop T M → Prop
  | .handling _ _ ownership =>
    ownership = c.ownership ∧ c.context.activeOwnership = some ownership
  | .adopted _ _ previous next =>
    c.context.activeOwnership = some previous ∧ next = c.ownership
  | .draining _ _ _ next => c.context.activeOwnership = some next ∧ next = c.ownership
  | _ => c.context.activeOwnership = some c.ownership

def Waits (tasks : List (QueuedTransaction T)) (order : List Nat) : ReceiveLoop T M → Prop
  | .enqueueing chunk => tasks.length < maxQueuedIngressTransactions ∧
      ∃ wireTransaction rest, chunk.remaining = .transaction wireTransaction :: rest
  | .awaitingTail chunk tail => (tasks ≠ [] → tail = order.getLast?) ∧
      ∃ message rest, chunk.remaining = message :: rest ∧
        requiresTransactionLaneOrdering message = true
  | .handling _ message _ | .adopted _ message _ _ | .draining _ message _ _
  | .replaced _ message => tasks = [] ∧ requiresTransactionLaneOrdering message = true
  | _ => True

theorem Waits.opened_eq_nil {tasks : List (QueuedTransaction T)} {order : List Nat}
    {loop : ReceiveLoop T M} (h : loop.Waits tasks order) (htasks : tasks ≠ []) :
    loop.opened = [] := by
  cases loop <;> first | rfl | exact absurd h.1 htasks

theorem Waits.aligned {tasks : List (QueuedTransaction T)} {order : List Nat}
    {loop : ReceiveLoop T M} (h : loop.Waits tasks order) (htasks : tasks ≠ [])
    {c : ConnectionState} (hactive : c.context.activeOwnership = some c.ownership) :
    loop.Aligned c := by
  cases loop <;> first | exact hactive | exact absurd h.1 htasks

end ReceiveLoop

namespace IngressLane

variable {s : IngressLane T M}

def openedTransactions (s : IngressLane T M) : List (Message T M) :=
  (s.transactionIngressTasks.filter (·.progress.isHandling)).map (.transaction ·.wireTransaction)

def waitingTransactions (s : IngressLane T M) : List (Message T M) :=
  (s.transactionIngressTasks.filter (·.progress.isWaiting)).map (.transaction ·.wireTransaction)

def sequentially (settled opened : List (Message T M)) : List (Entry T M) :=
  settled.flatMap (fun message => [.began message, .ended message]) ++ opened.map .began

/-- Every sequenced message delivered is settled, being handled, queued or to come, in this order,
and the log tells of no other and no overlapping handling. -/
def Accounted (s : IngressLane T M) : Prop :=
  ∃ settled,
    s.log = sequentially settled (s.openedTransactions ++ s.receiveLoop.opened) ∧
    s.delivered.filter sequenced = settled ++ (s.openedTransactions ++ s.receiveLoop.opened) ++
      s.waitingTransactions ++ s.receiveLoop.remaining.filter sequenced

structure Sound (s : IngressLane T M) : Prop where
  order : s.transactionIngressTasks.map (·.taskID) = s.transactionIngressOrder
  increasing : s.transactionIngressOrder.Pairwise (· < ·)
  fresh : ∀ taskID ∈ s.transactionIngressOrder, taskID < s.nextTaskID
  tail : s.transactionIngressTail = s.transactionIngressOrder.getLast?
  bounded : s.transactionIngressTasks.length ≤ maxQueuedIngressTransactions
  follows : ∀ oldest rest, s.transactionIngressTasks = oldest :: rest →
    (∀ predecessor, oldest.predecessor = some predecessor → predecessor < oldest.taskID) ∧
      Follows (some oldest.taskID) rest
  aligned : ∀ oldest rest, s.transactionIngressTasks = oldest :: rest →
    TaskAligned s.connection oldest.progress ∧ allowsDataPlane s.connection.phase = true ∧
      (oldest.progress.isWaiting ∨ oldest.progress.isHandling ∨ oldest.progress = .returned)
  loop : s.transactionIngressTasks = [] → s.receiveLoop.Aligned s.connection
  waits : s.receiveLoop.Waits s.transactionIngressTasks s.transactionIngressOrder
  accounted : s.Accounted

namespace Sound

theorem nodup (h : s.Sound) : (s.transactionIngressTasks.map (·.taskID)).Nodup := by
  rw [h.order]
  exact h.increasing.imp Nat.ne_of_lt

theorem queuedTransaction?_isSome (taskID : Nat) :
    (s.queuedTransaction? taskID).isSome = true ↔
      taskID ∈ s.transactionIngressTasks.map (·.taskID) := by
  rw [queuedTransaction?, List.find?_isSome, List.mem_map]
  constructor
  · rintro ⟨queued, hmem, heq⟩
    exact ⟨queued, hmem, of_decide_eq_true heq⟩
  · rintro ⟨queued, hmem, heq⟩
    exact ⟨queued, hmem, decide_eq_true heq⟩

theorem not_finished_iff (taskID : Nat) :
    s.finished (some taskID) = false ↔ taskID ∈ s.transactionIngressTasks.map (·.taskID) := by
  rw [← queuedTransaction?_isSome]
  change (s.queuedTransaction? taskID).isNone = false ↔ _
  rw [Option.isNone_eq_false_iff]

variable {queued oldest : QueuedTransaction T}

theorem queuedTransaction?_some {taskID : Nat}
    (hfind : s.queuedTransaction? taskID = some queued) :
    queued ∈ s.transactionIngressTasks ∧ queued.taskID = taskID := by
  have hfound := List.find?_some hfind
  exact ⟨List.mem_of_find?_eq_some hfind, by simpa using hfound⟩

variable {rest : List (QueuedTransaction T)}

theorem waiting_or_oldest (h : s.Sound) (htasks : s.transactionIngressTasks = oldest :: rest)
    (hmem : queued ∈ s.transactionIngressTasks) :
    queued = oldest ∨
      queued.progress = .awaitingPredecessor ∧ s.finished queued.predecessor = false := by
  rw [htasks] at hmem
  rcases List.mem_cons.mp hmem with rfl | hrest
  · exact .inl rfl
  · right
    obtain ⟨hawaits, hpredecessor⟩ := (h.follows oldest rest htasks).2.awaits hrest
    refine ⟨hawaits, ?_⟩
    rcases hpredecessor with heq | ⟨earlier, hearlier, heq⟩
    · rw [heq, not_finished_iff, htasks]
      exact List.mem_map_of_mem List.mem_cons_self
    · rw [heq, not_finished_iff, htasks]
      exact List.mem_map_of_mem (List.mem_cons_of_mem oldest hearlier)

def moved (s : IngressLane T M) (oldest : QueuedTransaction T) (rest : List (QueuedTransaction T))
    (connection : ConnectionState) (progress : TaskProgress) (entries : List (Entry T M)) :
    IngressLane T M :=
  { s with
    connection := connection
    transactionIngressTasks := { oldest with progress := progress } :: rest
    log := s.log ++ entries
    ended := progress = .failed }

theorem map_oldest (h : s.Sound) (htasks : s.transactionIngressTasks = oldest :: rest)
    (progress : TaskProgress) :
    (s.transactionIngressTasks.map fun t =>
      if t.taskID = oldest.taskID then { t with progress := progress } else t) =
        { oldest with progress := progress } :: rest := by
  have hnodup := h.nodup
  rw [htasks, List.map_cons, List.nodup_cons] at hnodup
  rw [htasks, List.map_cons, if_pos rfl]
  congr 1
  refine (List.map_congr_left fun queued hmem => ?_).trans (List.map_id rest)
  have hne : queued.taskID ≠ oldest.taskID := fun heq =>
    hnodup.1 (heq ▸ List.mem_map_of_mem hmem)
  rw [if_neg hne]
  rfl

theorem task_cases (h : s.Sound) (taskID : Nat) (action : TaskSection) :
    s.task taskID action = s ∨ ∃ oldest rest connection progress,
      s.transactionIngressTasks = oldest :: rest ∧
      taskSection s.connection (s.finished oldest.predecessor) oldest.progress action =
        some (connection, progress) ∧
      s.task taskID action = moved s oldest rest connection progress
        (action.entries (.transaction oldest.wireTransaction) progress) := by
  unfold task
  split
  · rename_i queued hfind
    obtain ⟨hmem, rfl⟩ := queuedTransaction?_some hfind
    obtain ⟨oldest, rest, htasks⟩ := List.exists_cons_of_ne_nil (List.ne_nil_of_mem hmem)
    rcases h.waiting_or_oldest htasks hmem with rfl | ⟨hawaits, hpredecessor⟩
    · split
      · rename_i connection progress hsection
        refine .inr ⟨queued, rest, connection, progress, htasks, hsection, ?_⟩
        rw [h.map_oldest htasks progress]
        rfl
      · exact .inl rfl
    · left
      have hnone : taskSection s.connection (s.finished queued.predecessor) queued.progress action =
          none := by
        rw [hawaits, hpredecessor]
        cases action <;> rfl
      rw [hnone]
  · exact .inl rfl

theorem filter_oldest (h : s.Sound) (htasks : s.transactionIngressTasks = oldest :: rest) :
    s.transactionIngressTasks.filter (·.taskID ≠ oldest.taskID) = rest := by
  have hnodup := h.nodup
  rw [htasks, List.map_cons, List.nodup_cons] at hnodup
  rw [htasks, List.filter_cons_of_neg (by simp)]
  refine List.filter_eq_self.mpr fun other hother => decide_eq_true fun heq => ?_
  exact hnodup.1 (heq ▸ List.mem_map_of_mem hother)

theorem finishQueuedTransaction_cases (h : s.Sound) (taskID : Nat) :
    s.finishQueuedTransaction taskID = s ∨ ∃ oldest rest,
      s.transactionIngressTasks = oldest :: rest ∧ oldest.progress = .returned ∧
      s.finishQueuedTransaction taskID = { s with
        transactionIngressTasks := rest
        transactionIngressOrder := rest.map (·.taskID)
        transactionIngressTail := if rest = [] then none else s.transactionIngressTail } := by
  unfold finishQueuedTransaction
  split
  · rename_i queued hfind
    obtain ⟨hmem, rfl⟩ := queuedTransaction?_some hfind
    obtain ⟨oldest, rest, htasks⟩ := List.exists_cons_of_ne_nil (List.ne_nil_of_mem hmem)
    by_cases hreturned : queued.progress = .returned
    · rw [if_pos hreturned]
      rcases h.waiting_or_oldest htasks hmem with rfl | ⟨hawaits, -⟩
      · refine .inr ⟨queued, rest, htasks, hreturned, ?_⟩
        have hrest := h.filter_oldest htasks
        have horder : s.transactionIngressOrder.erase queued.taskID = rest.map (·.taskID) := by
          rw [← h.order, htasks, List.map_cons, List.erase_cons_head]
        rw [hrest, horder]
      · rw [hawaits] at hreturned
        cases hreturned
    · rw [if_neg hreturned]
      exact .inl rfl
  · exact .inl rfl

theorem openedTransactions_eq
    (htasks : s.transactionIngressTasks = oldest :: rest)
    (hfollows : Follows (some oldest.taskID) rest) :
    s.openedTransactions =
      if oldest.progress.isHandling then [.transaction oldest.wireTransaction] else [] := by
  rw [openedTransactions, htasks, List.filter_cons, hfollows.stages.1]
  split_ifs <;> rfl

theorem waitingTransactions_eq
    (htasks : s.transactionIngressTasks = oldest :: rest)
    (hfollows : Follows (some oldest.taskID) rest) :
    s.waitingTransactions =
      (if oldest.progress.isWaiting then [.transaction oldest.wireTransaction] else []) ++
        rest.map (.transaction ·.wireTransaction) := by
  rw [waitingTransactions, htasks, List.filter_cons, hfollows.stages.2]
  split_ifs <;> rfl

theorem opened_eq_nil (h : s.Sound) (htasks : s.transactionIngressTasks ≠ []) :
    s.receiveLoop.opened = [] :=
  h.waits.opened_eq_nil htasks

theorem sequentially_begin (settled : List (Message T M)) (message : Message T M) :
    sequentially settled [] ++ [.began message] = sequentially settled [message] := by
  rw [sequentially, sequentially, List.map_nil, List.append_nil]
  rfl

theorem sequentially_end (settled : List (Message T M)) (message : Message T M) :
    sequentially settled [message] ++ [.ended message] =
      sequentially (settled ++ [message]) [] := by
  rw [sequentially, sequentially, List.map_nil, List.append_nil, List.flatMap_append,
    List.append_assoc]
  rfl

variable {progress : TaskProgress}

theorem isHandling_of_isWaiting (h : progress.isWaiting = true) :
    progress.isHandling = false := by
  cases progress <;> first | rfl | cases h

theorem isWaiting_of_isHandling (h : progress.isHandling = true) :
    progress.isWaiting = false := by
  cases progress <;> first | rfl | cases h

variable {connection : ConnectionState}

theorem accounted_moved (h : s.Sound) (htasks : s.transactionIngressTasks = oldest :: rest)
    {entries : List (Entry T M)}
    (hmoves : Moves (.transaction oldest.wireTransaction) oldest.progress progress entries) :
    (moved s oldest rest connection progress entries).Accounted := by
  obtain ⟨settled, hlog, hdelivered⟩ := h.accounted
  have hfollows := (h.follows oldest rest htasks).2
  have hloop := h.opened_eq_nil (by rw [htasks]; exact List.cons_ne_nil oldest rest)
  have hopened := openedTransactions_eq (s := moved s oldest rest connection progress entries)
    rfl hfollows
  have hwaiting := waitingTransactions_eq (s := moved s oldest rest connection progress entries)
    rfl hfollows
  rw [openedTransactions_eq htasks hfollows, hloop, List.append_nil] at hlog hdelivered
  rw [waitingTransactions_eq htasks hfollows] at hdelivered
  unfold Accounted
  rw [hopened, hwaiting]
  change ∃ settled, s.log ++ entries = sequentially settled (_ ++ s.receiveLoop.opened) ∧
    s.delivered.filter sequenced = settled ++ (_ ++ s.receiveLoop.opened) ++ _ ++
      s.receiveLoop.remaining.filter sequenced
  rw [hloop, List.append_nil]
  cases hmoves with
  | waits hfrom hto =>
    rw [hfrom, isHandling_of_isWaiting hfrom] at hdelivered
    rw [isHandling_of_isWaiting hfrom] at hlog
    rw [hto, isHandling_of_isWaiting hto, List.append_nil]
    exact ⟨settled, hlog, hdelivered⟩
  | begins hfrom hto =>
    rw [hfrom, isHandling_of_isWaiting hfrom] at hdelivered
    rw [isHandling_of_isWaiting hfrom] at hlog
    rw [hto, isWaiting_of_isHandling hto, hlog]
    refine ⟨settled, sequentially_begin settled _, ?_⟩
    rw [hdelivered]
    simp
  | handles hfrom hto =>
    rw [hfrom, isWaiting_of_isHandling hfrom] at hdelivered
    rw [hfrom] at hlog
    rw [hto, isWaiting_of_isHandling hto, List.append_nil]
    exact ⟨settled, hlog, hdelivered⟩
  | ends hfrom hto =>
    rw [hfrom, isWaiting_of_isHandling hfrom] at hdelivered
    rw [hfrom] at hlog
    subst hto
    refine ⟨settled ++ [.transaction oldest.wireTransaction], ?_, ?_⟩
    · rw [hlog]
      exact sequentially_end settled _
    · rw [hdelivered]
      simp [TaskProgress.isHandling, TaskProgress.isWaiting]

theorem moved_sound (h : s.Sound) (htasks : s.transactionIngressTasks = oldest :: rest)
    {entries : List (Entry T M)}
    (haligned : TaskAligned connection progress)
    (hphase : allowsDataPlane connection.phase = true)
    (hmoves : Moves (.transaction oldest.wireTransaction) oldest.progress progress entries) :
    (moved s oldest rest connection progress entries).Sound where
  order := by
    have horder := h.order
    rw [htasks] at horder
    exact horder
  increasing := h.increasing
  fresh := h.fresh
  tail := h.tail
  bounded := by
    have hbounded := h.bounded
    rw [htasks] at hbounded
    exact hbounded
  follows := by
    rintro first others heq
    obtain ⟨rfl, rfl⟩ := List.cons.inj heq
    exact h.follows oldest rest htasks
  aligned := by
    rintro first others heq
    obtain ⟨rfl, rfl⟩ := List.cons.inj heq
    refine ⟨haligned, hphase, ?_⟩
    cases hmoves with
    | waits _ hto => exact .inl hto
    | begins _ hto => exact .inr (.inl hto)
    | handles _ hto => exact .inr (.inl hto)
    | ends _ hto => exact .inr (.inr hto)
  loop := fun hnone => absurd hnone (List.cons_ne_nil _ rest)
  waits := by
    have hwaits := h.waits
    rw [htasks] at hwaits
    change s.receiveLoop.Waits _ s.transactionIngressOrder
    unfold ReceiveLoop.Waits at hwaits ⊢
    split at hwaits
    · exact hwaits
    · exact ⟨fun _ => hwaits.1 (List.cons_ne_nil oldest rest), hwaits.2⟩
    all_goals first | trivial | exact absurd hwaits.1 (List.cons_ne_nil oldest rest)
  accounted := h.accounted_moved htasks hmoves

theorem getLast?_rest {taskID : Nat} {order : List Nat} (h : order ≠ []) :
    (taskID :: order).getLast? = order.getLast? := by
  obtain ⟨first, others, rfl⟩ := List.exists_cons_of_ne_nil h
  exact List.getLast?_cons_cons

section

variable (h : s.Sound)

include h

theorem finished_sound (htasks : s.transactionIngressTasks = oldest :: rest)
    (hreturned : oldest.progress = .returned) :
    ({ s with
      transactionIngressTasks := rest
      transactionIngressOrder := rest.map (·.taskID)
      transactionIngressTail := if rest = [] then none else s.transactionIngressTail } :
      IngressLane T M).Sound := by
  have hne : s.transactionIngressTasks ≠ [] := by
    rw [htasks]
    exact List.cons_ne_nil oldest rest
  have horder : s.transactionIngressOrder = oldest.taskID :: rest.map (·.taskID) := by
    rw [← h.order, htasks, List.map_cons]
  have hincreasing := h.increasing
  rw [horder, List.pairwise_cons] at hincreasing
  obtain ⟨haligned, hphase, -⟩ := h.aligned oldest rest htasks
  rw [hreturned] at haligned
  have hfollows := (h.follows oldest rest htasks).2
  have hids (hrest : rest ≠ []) : rest.map (·.taskID) ≠ [] := by
    rwa [ne_eq, List.map_eq_nil_iff]
  refine ⟨rfl, hincreasing.2, ?_, ?_, ?_, ?_, ?_, ?_, ?_, ?_⟩
  · intro taskID hmem
    refine h.fresh taskID ?_
    rw [horder]
    exact List.mem_cons_of_mem _ hmem
  · change (if rest = [] then none else s.transactionIngressTail) = (rest.map (·.taskID)).getLast?
    split_ifs with hrest
    · rw [hrest]
      rfl
    · rw [h.tail, horder, getLast?_rest (hids hrest)]
  · have hbounded := h.bounded
    rw [htasks, List.length_cons] at hbounded
    exact (Nat.lt_of_succ_le hbounded).le
  · rintro first others rfl
    refine ⟨?_, hfollows.2.2⟩
    intro predecessor hpredecessor
    rw [hfollows.1] at hpredecessor
    rw [← Option.some.inj hpredecessor]
    exact hincreasing.1 first.taskID List.mem_cons_self
  · rintro first others rfl
    rw [hfollows.2.1]
    exact ⟨haligned, hphase, .inl rfl⟩
  · exact fun _ => h.waits.aligned hne haligned
  · have hwaits := h.waits
    change s.receiveLoop.Waits rest (rest.map (·.taskID))
    cases hloop : s.receiveLoop with
    | enqueueing chunk =>
      rw [hloop] at hwaits
      refine ⟨lt_of_le_of_lt ?_ hwaits.1, hwaits.2⟩
      rw [htasks]
      exact Nat.le_succ _
    | awaitingTail chunk tail =>
      rw [hloop] at hwaits
      refine ⟨fun hrest => ?_, hwaits.2⟩
      rw [hwaits.1 hne, horder, getLast?_rest (hids hrest)]
    | _ =>
      rw [hloop] at hwaits
      first | trivial | exact absurd hwaits.1 hne
  · obtain ⟨settled, hlog, hdelivered⟩ := h.accounted
    rw [openedTransactions_eq htasks hfollows, hreturned] at hlog hdelivered
    rw [waitingTransactions_eq htasks hfollows, hreturned] at hdelivered
    have hopened : ({ s with
        transactionIngressTasks := rest
        transactionIngressOrder := rest.map (·.taskID)
        transactionIngressTail := if rest = [] then none else s.transactionIngressTail } :
        IngressLane T M).openedTransactions = [] :=
      congrArg _ hfollows.stages.1
    have hwaiting : ({ s with
        transactionIngressTasks := rest
        transactionIngressOrder := rest.map (·.taskID)
        transactionIngressTail := if rest = [] then none else s.transactionIngressTail } :
        IngressLane T M).waitingTransactions =
          rest.map (.transaction ·.wireTransaction) :=
      congrArg _ hfollows.stages.2
    refine ⟨settled, ?_, ?_⟩
    · rw [hopened]
      exact hlog
    · rw [hopened, hwaiting]
      exact hdelivered

theorem of_loop {t : IngressLane T M}
    (htasks : t.transactionIngressTasks = s.transactionIngressTasks)
    (horder : t.transactionIngressOrder = s.transactionIngressOrder)
    (htail : t.transactionIngressTail = s.transactionIngressTail)
    (hnext : t.nextTaskID = s.nextTaskID)
    (hconnection : s.transactionIngressTasks ≠ [] → t.connection = s.connection)
    (hloop : s.transactionIngressTasks = [] → t.receiveLoop.Aligned t.connection)
    (hwaits : t.receiveLoop.Waits s.transactionIngressTasks s.transactionIngressOrder)
    (haccounted : t.Accounted) : t.Sound where
  order := by rw [htasks, horder, h.order]
  increasing := horder ▸ h.increasing
  fresh := by
    rw [horder, hnext]
    exact h.fresh
  tail := by rw [htail, horder, h.tail]
  bounded := htasks ▸ h.bounded
  follows := htasks ▸ h.follows
  aligned := by
    intro oldest rest heq
    rw [htasks] at heq
    rw [hconnection (by rw [heq]; exact List.cons_ne_nil oldest rest)]
    exact h.aligned oldest rest heq
  loop := fun hnone => hloop (htasks ▸ hnone)
  waits := by
    rw [htasks, horder]
    exact hwaits
  accounted := haccounted

theorem accounted_of_loop {t : IngressLane T M}
    (htasks : t.transactionIngressTasks = s.transactionIngressTasks) (hlog : t.log = s.log)
    (hdelivered : t.delivered = s.delivered) (hopened : t.receiveLoop.opened = s.receiveLoop.opened)
    (hremaining : t.receiveLoop.remaining.filter sequenced =
      s.receiveLoop.remaining.filter sequenced) : t.Accounted := by
  unfold Accounted openedTransactions waitingTransactions
  rw [htasks, hlog, hdelivered, hopened, hremaining]
  exact h.accounted

theorem reloop (loop : ReceiveLoop T M)
    (hloop : s.transactionIngressTasks = [] → loop.Aligned s.connection)
    (hwaits : loop.Waits s.transactionIngressTasks s.transactionIngressOrder)
    (hopened : loop.opened = s.receiveLoop.opened)
    (hremaining : loop.remaining.filter sequenced = s.receiveLoop.remaining.filter sequenced)
    (acknowledgements : List ChunkAcknowledgement) (acknowledged : List (Nat × Nat)) :
    ({ s with
      receiveLoop := loop
      acknowledgements := acknowledgements
      acknowledged := acknowledged } : IngressLane T M).Sound :=
  h.of_loop rfl rfl rfl rfl (fun _ => rfl) hloop hwaits
    (h.accounted_of_loop rfl rfl rfl hopened hremaining)

theorem receiveChunk (byteCount : Nat) (messages : List (Message T M)) :
    (s.receiveChunk byteCount messages).Sound := by
  unfold IngressLane.receiveChunk
  split
  · rename_i hloop
    have haligned := h.loop
    rw [hloop] at haligned
    refine h.of_loop rfl rfl rfl rfl (fun _ => rfl) haligned trivial ?_
    obtain ⟨settled, hlog, hdelivered⟩ := h.accounted
    rw [hloop] at hlog hdelivered
    refine ⟨settled, hlog, ?_⟩
    rw [List.filter_append, hdelivered]
    exact congrArg (· ++ messages.filter sequenced) (List.append_nil _)
  · exact h

theorem length_lt_of_oldestQueued (hnone : s.oldestQueued = none) :
    s.transactionIngressTasks.length < maxQueuedIngressTransactions := by
  by_contra hfull
  rw [oldestQueued, if_pos (not_lt.mp hfull)] at hnone
  have hne : s.transactionIngressTasks ≠ [] := by
    intro hempty
    rw [hempty] at hfull
    exact hfull (Nat.zero_lt_succ 2047)
  obtain ⟨oldest, rest, htasks⟩ := List.exists_cons_of_ne_nil hne
  have hfound : (s.queuedTransaction? oldest.taskID).isSome = true := by
    rw [queuedTransaction?_isSome, htasks]
    exact List.mem_map_of_mem List.mem_cons_self
  rw [← h.order, htasks, List.map_cons, List.head?_cons, Option.bind_some,
    Option.map_eq_none_iff] at hnone
  rw [hnone] at hfound
  exact Bool.false_ne_true hfound

theorem awaitTransactionIngressQueueCapacity :
    s.awaitTransactionIngressQueueCapacity.Sound := by
  unfold IngressLane.awaitTransactionIngressQueueCapacity
  split
  · rename_i chunk hloop
    have haligned := h.loop
    rw [hloop] at haligned
    split
    · rename_i wireTransaction rest hremaining
      split
      · exact h.reloop (.awaitingOldest chunk _) haligned trivial (by rw [hloop]; rfl)
          (by rw [hloop]; rfl) _ _
      · rename_i hnone
        exact h.reloop (.enqueueing chunk) haligned
          ⟨h.length_lt_of_oldestQueued hnone, wireTransaction, rest, hremaining⟩
          (by rw [hloop]; rfl) (by rw [hloop]; rfl) _ _
    · exact h
  · exact h

theorem oldestFinished : s.oldestFinished.Sound := by
  unfold IngressLane.oldestFinished
  split
  · rename_i chunk oldest hloop
    have haligned := h.loop
    rw [hloop] at haligned
    split_ifs
    · exact h.reloop (.dispatching chunk) haligned trivial (by rw [hloop]; rfl)
        (by rw [hloop]; rfl) _ _
    · exact h
  · exact h

theorem awaitQueuedTransactionLane : s.awaitQueuedTransactionLane.Sound := by
  unfold IngressLane.awaitQueuedTransactionLane
  split
  · rename_i chunk hloop
    have haligned := h.loop
    rw [hloop] at haligned
    split
    · rename_i message rest hremaining
      split_ifs with hordered
      · exact h.reloop (.awaitingTail chunk _) haligned
          ⟨fun _ => h.tail, message, rest, hremaining, hordered⟩ (by rw [hloop]; rfl) (by rw [hloop]; rfl) _ _
      · exact h
    · exact h
  · exact h

theorem handleOther : s.handleOther.Sound := by
  unfold IngressLane.handleOther
  split
  · rename_i chunk hloop
    have haligned := h.loop
    rw [hloop] at haligned
    split
    · rename_i message rest hremaining
      refine h.reloop (.dispatching { chunk with remaining := rest }) haligned trivial
        (by rw [hloop]; rfl) ?_ _ _
      rw [hloop]
      change rest.filter sequenced = chunk.remaining.filter sequenced
      rw [hremaining]
      rfl
    · exact h
  · exact h

theorem finishChunk : s.finishChunk.Sound := by
  unfold IngressLane.finishChunk
  split
  · rename_i chunk hloop
    have haligned := h.loop
    rw [hloop] at haligned
    split
    · rename_i hremaining
      have hdone : (ReceiveLoop.awaitingChunk : ReceiveLoop T M).remaining.filter sequenced =
          s.receiveLoop.remaining.filter sequenced := by
        rw [hloop]
        change [] = chunk.remaining.filter sequenced
        rw [hremaining]
        rfl
      split_ifs
      all_goals exact h.reloop .awaitingChunk haligned trivial (by rw [hloop]; rfl) hdone _ _
    · exact h
  · exact h

end

variable {chunk : ReceivedChunk T M}

section

variable (h : s.Sound)

include h

theorem enqueued_sound (hloop : s.receiveLoop = .enqueueing chunk) {wireTransaction : T}
    {rest : List (Message T M)}
    (hremaining : chunk.remaining = .transaction wireTransaction :: rest)
    (hphase : allowsDataPlane s.connection.phase = true)
    (hqueued : queued.taskID = s.nextTaskID ∧ queued.wireTransaction = wireTransaction ∧
      queued.predecessor = s.transactionIngressTail ∧ queued.progress = .awaitingPredecessor)
    (completions : List Nat) :
    ({ s with
      transactionIngressTasks := s.transactionIngressTasks ++ [queued]
      transactionIngressOrder := s.transactionIngressOrder ++ [s.nextTaskID]
      transactionIngressTail := some s.nextTaskID
      nextTaskID := s.nextTaskID + 1
      receiveLoop := .dispatching { chunk with
        remaining := rest
        transactionCompletions := completions } } : IngressLane T M).Sound := by
  obtain ⟨hid, hwire, hpredecessor, hprogress⟩ := hqueued
  have hwaits := h.waits
  have haligned := h.loop
  rw [hloop] at hwaits haligned
  refine ⟨?_, ?_, ?_, ?_, ?_, ?_, ?_, ?_, trivial, ?_⟩
  · change (s.transactionIngressTasks ++ [queued]).map (·.taskID) =
      s.transactionIngressOrder ++ [s.nextTaskID]
    rw [List.map_append, h.order, List.map_singleton, hid]
  · refine List.pairwise_append.mpr ⟨h.increasing, List.pairwise_singleton _ _, ?_⟩
    intro earlier hearlier last hlast
    rw [List.mem_singleton.mp hlast]
    exact h.fresh earlier hearlier
  · intro taskID hmem
    rcases List.mem_append.mp hmem with hmem | hmem
    · exact Nat.lt_succ_of_lt (h.fresh taskID hmem)
    · rw [List.mem_singleton.mp hmem]
      exact Nat.lt_succ_self _
  · exact List.getLast?_concat.symm
  · change (s.transactionIngressTasks ++ [queued]).length ≤ maxQueuedIngressTransactions
    rw [List.length_append, List.length_singleton]
    exact hwaits.1
  · rintro oldest others heq
    change s.transactionIngressTasks ++ [queued] = oldest :: others at heq
    cases htasks : s.transactionIngressTasks with
    | nil =>
      rw [htasks, List.nil_append] at heq
      obtain ⟨rfl, rfl⟩ := List.cons.inj heq
      refine ⟨fun predecessor hsome => ?_, trivial⟩
      rw [hpredecessor, h.tail, ← h.order, htasks] at hsome
      cases hsome
    | cons first more =>
      rw [htasks, List.cons_append] at heq
      obtain ⟨rfl, rfl⟩ := List.cons.inj heq
      obtain ⟨hbefore, hfollows⟩ := h.follows first more htasks
      refine ⟨hbefore, hfollows.concat hprogress ?_⟩
      rw [hpredecessor, h.tail, ← h.order, htasks, List.map_cons, List.getLast?_cons]
      cases (more.map (·.taskID)).getLast? <;> rfl
  · rintro oldest others heq
    change s.transactionIngressTasks ++ [queued] = oldest :: others at heq
    cases htasks : s.transactionIngressTasks with
    | nil =>
      rw [htasks, List.nil_append] at heq
      obtain ⟨rfl, rfl⟩ := List.cons.inj heq
      rw [hprogress]
      exact ⟨haligned htasks, hphase, .inl rfl⟩
    | cons first more =>
      rw [htasks, List.cons_append] at heq
      obtain ⟨rfl, rfl⟩ := List.cons.inj heq
      exact h.aligned first more htasks
  · intro hnone
    exact absurd hnone (List.append_ne_nil_of_right_ne_nil _ (List.cons_ne_nil queued []))
  · obtain ⟨settled, hlog, hdelivered⟩ := h.accounted
    rw [hloop] at hlog hdelivered
    have hopened : (s.transactionIngressTasks ++ [queued]).filter (·.progress.isHandling) =
        s.transactionIngressTasks.filter (·.progress.isHandling) := by
      rw [List.filter_append, List.filter_singleton, hprogress]
      exact List.append_nil _
    have hwaiting : (s.transactionIngressTasks ++ [queued]).filter (·.progress.isWaiting) =
        s.transactionIngressTasks.filter (·.progress.isWaiting) ++ [queued] := by
      rw [List.filter_append, List.filter_singleton, hprogress]
      rfl
    refine ⟨settled, ?_, ?_⟩
    · unfold openedTransactions
      rw [hopened]
      exact hlog
    · unfold openedTransactions waitingTransactions
      rw [hopened, hwaiting, List.map_append, List.map_singleton, hwire]
      change s.delivered.filter sequenced = settled ++ (s.openedTransactions ++ []) ++
        (s.waitingTransactions ++ [.transaction wireTransaction]) ++ rest.filter sequenced
      have hhead : (ReceiveLoop.enqueueing chunk).remaining.filter sequenced =
          .transaction wireTransaction :: rest.filter sequenced := by
        change chunk.remaining.filter sequenced = _
        rw [hremaining]
        rfl
      rw [hdelivered, hhead]
      simp [ReceiveLoop.opened]

theorem enqueueIncomingTransaction :
    s.enqueueIncomingTransaction.ended = true ∨ s.enqueueIncomingTransaction.Sound := by
  unfold IngressLane.enqueueIncomingTransaction
  split
  · rename_i chunk hloop
    split
    · rename_i wireTransaction rest hremaining
      split_ifs with hphase
      · exact .inr (h.enqueued_sound hloop hremaining hphase ⟨rfl, rfl, rfl, rfl⟩ _)
      · exact .inl rfl
    · exact .inr h
  · exact .inr h

theorem lane_empty {tail : Option Nat} (hloop : s.receiveLoop = .awaitingTail chunk tail)
    (hfinished : s.finished tail = true) :
    s.transactionIngressTasks = [] := by
  by_contra hne
  have hwaits := h.waits
  rw [hloop] at hwaits
  have hids : s.transactionIngressTasks.map (·.taskID) ≠ [] := by
    rwa [ne_eq, List.map_eq_nil_iff]
  have htail := hwaits.1 hne
  rw [← h.order, List.getLast?_eq_some_getLast hids] at htail
  have hqueued := (not_finished_iff _).mpr (List.getLast_mem hids)
  rw [← htail, hfinished] at hqueued
  cases hqueued

theorem handleOrderedMessage :
    s.handleOrderedMessage.ended = true ∨ s.handleOrderedMessage.Sound := by
  unfold IngressLane.handleOrderedMessage
  split
  · rename_i chunk tail hloop
    split
    · rename_i message rest hremaining
      split_ifs with hfinished hexpected
      · right
        have hempty := h.lane_empty hloop hfinished
        have hwaits := h.waits
        have haligned := h.loop hempty
        rw [hloop] at hwaits haligned
        obtain ⟨message', rest', hremaining', hordered⟩ := hwaits.2
        rw [hremaining] at hremaining'
        obtain ⟨rfl, rfl⟩ := List.cons.inj hremaining'
        refine h.of_loop rfl rfl rfl rfl (fun _ => rfl) (fun _ => ⟨rfl, haligned⟩)
          ⟨hempty, hordered⟩ ?_
        obtain ⟨settled, hlog, hdelivered⟩ := h.accounted
        have hopened : s.openedTransactions = [] := by
          rw [openedTransactions, hempty]
          rfl
        rw [hloop, hopened] at hlog hdelivered
        refine ⟨settled, ?_, ?_⟩
        · change s.log ++ [.began message] =
            sequentially settled (s.openedTransactions ++ [message])
          rw [hopened, hlog]
          exact sequentially_begin settled message
        · change s.delivered.filter sequenced = settled ++ (s.openedTransactions ++ [message]) ++
            s.waitingTransactions ++ rest.filter sequenced
          have hwaiting : s.waitingTransactions = [] := by
            rw [waitingTransactions, hempty]
            rfl
          have hsequenced : sequenced message = true := by
            cases message <;> first | rfl | exact hordered
          have hhead : (ReceiveLoop.awaitingTail chunk tail).remaining.filter sequenced =
              message :: rest.filter sequenced := by
            change chunk.remaining.filter sequenced = _
            rw [hremaining, List.filter_cons_of_pos hsequenced]
          rw [hdelivered, hhead, hopened, hwaiting]
          simp [ReceiveLoop.opened]
      · exact .inl rfl
      · exact .inr h
    · exact .inr h
  · exact .inr h

theorem handling_on (hempty : s.transactionIngressTasks = []) {loop : ReceiveLoop T M}
    (hloop : loop.Aligned connection)
    (hwaits : loop.Waits ([] : List (QueuedTransaction T)) s.transactionIngressOrder)
    (hopened : loop.opened = s.receiveLoop.opened)
    (hremaining : loop.remaining = s.receiveLoop.remaining) :
    ({ s with connection := connection, receiveLoop := loop } : IngressLane T M).Sound := by
  refine h.of_loop rfl rfl rfl rfl (fun hne => absurd hempty hne) (fun _ => hloop) ?_
    (h.accounted_of_loop rfl rfl rfl hopened (congrArg _ hremaining))
  rw [hempty]
  exact hwaits

theorem resetTextEditingForReplacement (sessionIncarnation : Nat) :
    (s.resetTextEditingForReplacement sessionIncarnation).Sound := by
  unfold IngressLane.resetTextEditingForReplacement
  split
  · rename_i chunk resync ownership hloop
    have hwaits := h.waits
    rw [hloop] at hwaits
    have haligned := h.loop hwaits.1
    rw [hloop] at haligned
    obtain ⟨rfl, hactive⟩ := haligned
    exact h.handling_on hwaits.1 ⟨hactive, rfl⟩ ⟨rfl, hwaits.2⟩ (by rw [hloop]; rfl)
      (by rw [hloop]; rfl)
  · exact h

theorem advanceSessionIncarnation :
    s.advanceSessionIncarnation.ended = true ∨ s.advanceSessionIncarnation.Sound := by
  unfold IngressLane.advanceSessionIncarnation
  split
  · rename_i chunk message previous next hloop
    have hwaits := h.waits
    rw [hloop] at hwaits
    have haligned := h.loop hwaits.1
    rw [hloop] at haligned
    obtain ⟨hactive, rfl⟩ := haligned
    split_ifs with hsame hnext
    · exact .inr (h.handling_on hwaits.1 (hactive.trans (congrArg some hsame)) ⟨rfl, hwaits.2⟩
        (by rw [hloop]; rfl) (by rw [hloop]; rfl))
    · exact .inl rfl
    · exact .inr (h.handling_on hwaits.1 ⟨rfl, rfl⟩ ⟨rfl, hwaits.2⟩ (by rw [hloop]; rfl)
        (by rw [hloop]; rfl))
  · exact .inr h

theorem finishAdvance :
    s.finishAdvance.ended = true ∨ s.finishAdvance.Sound := by
  unfold IngressLane.finishAdvance
  split
  · rename_i chunk message previous next hloop
    have hwaits := h.waits
    rw [hloop] at hwaits
    have haligned := h.loop hwaits.1
    rw [hloop] at haligned
    obtain ⟨hactive, rfl⟩ := haligned
    split_ifs
    · exact .inr (h.handling_on hwaits.1 hactive ⟨rfl, hwaits.2⟩ (by rw [hloop]; rfl)
        (by rw [hloop]; rfl))
    · exact .inl rfl
  · exact .inr h

end

theorem settle_active (c : ConnectionState) (message : Message T M)
    (h : c.context.activeOwnership = some c.ownership) :
    (settle c message).context.activeOwnership = some (settle c message).ownership := by
  cases message <;> exact h

theorem settled_sound (h : s.Sound) {message : Message T M}
    (hempty : s.transactionIngressTasks = []) (hopened : s.receiveLoop.opened = [message])
    (hchunk : s.receiveLoop.chunk? = some chunk)
    (hactive : s.connection.context.activeOwnership = some s.connection.ownership) :
    ({ s with
      connection := settle s.connection message
      receiveLoop := .dispatching chunk
      log := s.log ++ [.ended message] } : IngressLane T M).Sound := by
  refine h.of_loop rfl rfl rfl rfl (fun hne => absurd hempty hne)
    (fun _ => settle_active s.connection message hactive) trivial ?_
  obtain ⟨settled, hlog, hdelivered⟩ := h.accounted
  have hnone : s.openedTransactions = [] := by
    rw [openedTransactions, hempty]
    rfl
  rw [hopened, hnone, List.nil_append] at hlog hdelivered
  refine ⟨settled ++ [message], ?_, ?_⟩
  · change s.log ++ [.ended message] =
      sequentially (settled ++ [message]) (s.openedTransactions ++ [])
    rw [hnone, hlog]
    exact sequentially_end settled message
  · change s.delivered.filter sequenced = settled ++ [message] ++ (s.openedTransactions ++ []) ++
      s.waitingTransactions ++ chunk.remaining.filter sequenced
    have hremaining : s.receiveLoop.remaining = chunk.remaining := by
      rw [ReceiveLoop.remaining, hchunk]
    rw [hdelivered, hremaining, hnone, List.nil_append, List.append_nil]

theorem returnFromOrderedMessage (h : s.Sound) : s.returnFromOrderedMessage.Sound := by
  unfold IngressLane.returnFromOrderedMessage
  split
  · rename_i chunk message ownership hloop
    have hwaits := h.waits
    rw [hloop] at hwaits
    have haligned := h.loop hwaits.1
    rw [hloop] at haligned
    obtain ⟨rfl, hactive⟩ := haligned
    exact h.settled_sound hwaits.1 (by rw [hloop]; rfl) (by rw [hloop]; rfl) hactive
  · rename_i chunk message hloop
    have hwaits := h.waits
    rw [hloop] at hwaits
    have haligned := h.loop hwaits.1
    rw [hloop] at haligned
    exact h.settled_sound hwaits.1 (by rw [hloop]; rfl) (by rw [hloop]; rfl) haligned
  · exact h

theorem welcomed_active (c : ConnectionState) (initialRevision : Nat)
    (h : c.context.activeOwnership = some c.ownership) :
    (welcomed c initialRevision).context.activeOwnership =
      some (welcomed c initialRevision).ownership := by
  unfold welcomed
  split_ifs
  · exact h
  · exact h

theorem handleWelcome (h : s.Sound) :
    s.handleWelcome.ended = true ∨ s.handleWelcome.Sound := by
  unfold IngressLane.handleWelcome
  split
  · rename_i chunk hloop
    have haligned := h.loop
    rw [hloop] at haligned
    split
    · rename_i welcome initialRevision rest hremaining
      by_cases hphase : s.connection.phase = .idle ∨ s.connection.phase = .awaitingWelcome
      · right
        rw [if_pos hphase]
        have hempty : s.transactionIngressTasks = [] := by
          by_contra hne
          obtain ⟨oldest, others, htasks⟩ := List.exists_cons_of_ne_nil hne
          have hallowed := (h.aligned oldest others htasks).2.1
          rcases hphase with heq | heq
          all_goals
            rw [heq] at hallowed
            cases hallowed
        refine h.of_loop rfl rfl rfl rfl (fun hne => absurd hempty hne) (fun _ => ?_) trivial ?_
        · exact welcomed_active s.connection initialRevision (haligned hempty)
        · refine h.accounted_of_loop rfl rfl rfl (by rw [hloop]; rfl) ?_
          rw [hloop]
          change rest.filter sequenced = chunk.remaining.filter sequenced
          rw [hremaining]
          rfl
      · rw [if_neg hphase]
        exact .inl rfl
    · exact .inr h
  · exact .inr h

theorem completionFinished (h : s.Sound) (index : Nat) : (s.completionFinished index).Sound :=
  ⟨h.order, h.increasing, h.fresh, h.tail, h.bounded, h.follows, h.aligned, h.loop, h.waits,
    h.accounted⟩

theorem acknowledgeReceived (h : s.Sound) (index : Nat) : (s.acknowledgeReceived index).Sound := by
  unfold IngressLane.acknowledgeReceived
  split
  · exact ⟨h.order, h.increasing, h.fresh, h.tail, h.bounded, h.follows, h.aligned, h.loop, h.waits,
      h.accounted⟩
  · exact h

theorem step (h : s.Sound) (action : Section T M) :
    (s.step action).ended = true ∨ (s.step action).Sound := by
  unfold IngressLane.step
  split_ifs with hended
  · exact .inl hended
  cases action with
  | receiveChunk byteCount messages => exact .inr (h.receiveChunk byteCount messages)
  | awaitTransactionIngressQueueCapacity => exact .inr h.awaitTransactionIngressQueueCapacity
  | oldestFinished => exact .inr h.oldestFinished
  | enqueueIncomingTransaction => exact h.enqueueIncomingTransaction
  | awaitQueuedTransactionLane => exact .inr h.awaitQueuedTransactionLane
  | handleOrderedMessage => exact h.handleOrderedMessage
  | resetTextEditingForReplacement sessionIncarnation =>
    exact .inr (h.resetTextEditingForReplacement sessionIncarnation)
  | advanceSessionIncarnation => exact h.advanceSessionIncarnation
  | finishAdvance => exact h.finishAdvance
  | returnFromOrderedMessage => exact .inr h.returnFromOrderedMessage
  | handleWelcome => exact h.handleWelcome
  | handleOther => exact .inr h.handleOther
  | finishChunk => exact .inr h.finishChunk
  | task taskID action =>
    right
    change (s.task taskID action).Sound
    rcases h.task_cases taskID action with heq | ⟨oldest, rest, connection, progress, htasks,
      hsection, heq⟩
    · rwa [heq]
    · obtain ⟨haligned, hphase, -⟩ := h.aligned oldest rest htasks
      obtain ⟨haligned', hphase', hmoves⟩ :=
        taskSection_moves (.transaction oldest.wireTransaction) hsection haligned hphase
      rw [heq]
      exact h.moved_sound htasks haligned' hphase' hmoves
  | finishQueuedTransaction taskID =>
    right
    change (s.finishQueuedTransaction taskID).Sound
    rcases h.finishQueuedTransaction_cases taskID with heq | ⟨oldest, rest, htasks, hreturned,
      heq⟩
    · rwa [heq]
    · rw [heq]
      exact h.finished_sound htasks hreturned
  | completionFinished index => exact .inr (h.completionFinished index)
  | acknowledgeReceived index => exact .inr (h.acknowledgeReceived index)
  | endConnection => exact .inl rfl

end Sound

end IngressLane

end Srui.Client.TransactionLanes

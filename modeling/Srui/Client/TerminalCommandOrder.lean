import Srui.Client.TerminalCommandTurns

/-!
What the terminal command pump keeps through every run of its turns.

The entries handed over and then those queued ascend in their serials; a drain exists while there
is something to hand over; and the queue holds for a stream its latest size or none.
-/

namespace Srui.Client.TerminalCommandOrder

open Basic.Runs SemanticTree.Values TerminalCommandPumps TerminalCommandTurns
open TerminalCommandTurns.Pump

variable {σ α : Type} {pump : Pump σ α}

/-! ### Drains -/

theorem drain_cases (pump : Pump σ α) (index : Nat) :
    (∃ sender entry rest, pump.connected = true ∧ pump.sendIfAuthorized = some sender ∧
      pump.queue = entry :: rest ∧
      pump.drain index =
        { pump with
          queue := rest
          handed := pump.handed ++ [⟨sender, entry⟩]
          drains := pump.drains.set index .sending }) ∨
    ∃ left, left <:+ pump.queue ∧ (pump.connected = true → left = []) ∧
      (pump.connected = true → pump.sendIfAuthorized.isSome → pump.queue = []) ∧
      pump.drain index =
        { pump with queue := left, drainTask := false, drains := pump.drains.eraseIdx index } := by
  have hloop : ∀ entries : List Entry,
      (∃ sender entry rest, pump.connected = true ∧ pump.sendIfAuthorized = some sender ∧
        entries = entry :: rest ∧ pump.drainLoop entries =
          ({ pump with queue := rest, handed := pump.handed ++ [⟨sender, entry⟩] }, true)) ∨
      ∃ left, left <:+ entries ∧ (pump.connected = true → left = []) ∧
        (pump.connected = true → pump.sendIfAuthorized.isSome → entries = []) ∧
        pump.drainLoop entries = ({ pump with queue := left }, false) := by
    intro entries
    induction entries with
    | nil => exact Or.inr ⟨[], List.suffix_rfl, fun _ => rfl, fun _ _ => rfl, rfl⟩
    | cons entry rest ih =>
      by_cases hconnected : pump.connected = true
      · rcases Option.eq_none_or_eq_some pump.sendIfAuthorized with hsender | ⟨sender, hsender⟩
        · have hskip : pump.drainLoop (entry :: rest) = pump.drainLoop rest := by
            rw [drainLoop, if_pos hconnected, hsender]
          rcases ih with ⟨sender, _, _, -, hsome, -⟩ | ⟨left, hsuffix, hleft, -, hdrain⟩
          · rw [hsender] at hsome
            cases hsome
          · refine Or.inr ⟨left, hsuffix.trans (List.suffix_cons entry rest), hleft, ?_,
              hskip.trans hdrain⟩
            intro _ hsome
            rw [hsender] at hsome
            cases hsome
        · refine Or.inl ⟨sender, entry, rest, hconnected, hsender, rfl, ?_⟩
          rw [drainLoop, if_pos hconnected, hsender]
      · refine Or.inr ⟨entry :: rest, List.suffix_rfl, fun h => absurd h hconnected,
          fun h => absurd h hconnected, ?_⟩
        rw [drainLoop, if_neg hconnected]
  rcases hloop pump.queue with ⟨sender, entry, rest, hconnected, hsender, hqueue, hdrain⟩ |
      ⟨left, hsuffix, hleft, hnone, hdrain⟩
  · refine Or.inl ⟨sender, entry, rest, hconnected, hsender, hqueue, ?_⟩
    rw [drain, hdrain]
    rfl
  · refine Or.inr ⟨left, hsuffix, hleft, hnone, ?_⟩
    rw [drain, hdrain]
    rfl

theorem step_drain [DecidableEq α] (pump : Pump σ α) (index : Nat) (result : SendResult) :
    (pump.step (.startDrain index) = pump ∨
      index < pump.drains.length ∧ pump.step (.startDrain index) = pump.drain index) ∧
    (pump.step (.sendReturns index result) = pump ∨
      index < pump.drains.length ∧ pump.step (.sendReturns index result) = pump.drain index) := by
  have hlt : ∀ {drain}, pump.drains[index]? = some drain → index < pump.drains.length :=
    fun h => (List.getElem?_eq_some_iff.mp h).1
  constructor
  all_goals
    show (if _ then _ else _) = _ ∨ _ ∧ (if _ then _ else _) = _
    split_ifs with hdue
    · exact Or.inr ⟨hlt hdue, rfl⟩
    · exact Or.inl rfl

/-- A task stands for the one drain, which runs while a connected pump has something queued. -/
structure Working (pump : Pump σ α) : Prop where
  drains : pump.drains.length = if pump.drainTask then 1 else 0
  active : pump.connected = true → pump.queue ≠ [] → pump.drainTask = true
  installed : pump.connected = true → pump.sendIfAuthorized.isSome = true

theorem foldl_queueRetained (order : List NodeId) (pump : Pump σ α) :
    ∃ queue issued, order.foldl queueRetained pump =
      { pump with queue := queue, issued := issued } := by
  induction order generalizing pump with
  | nil => exact ⟨pump.queue, pump.issued, rfl⟩
  | cons streamID rest ih =>
    obtain ⟨queue, issued, hrest⟩ := ih (pump.queueRetained streamID)
    refine ⟨queue, issued, ?_⟩
    rw [List.foldl_cons, hrest, queueRetained]
    split <;> rfl

variable {next : Pump σ α}

theorem Working.kick (h : Working pump) (hdrains : next.drains = pump.drains)
    (htask : next.drainTask = pump.drainTask)
    (hinstalled : next.connected = true → next.sendIfAuthorized.isSome = true) :
    Working next.kick where
  drains := by
    have hcount := h.drains
    rw [← hdrains, ← htask] at hcount
    rw [kick_drainTask, if_pos rfl, Pump.kick]
    split_ifs with hkept
    · rwa [if_pos hkept] at hcount
    · rw [if_neg hkept] at hcount
      rw [List.length_append, hcount]
      rfl
  active := fun _ _ => kick_drainTask
  installed := by
    rw [kick_connected, kick_sendIfAuthorized]
    exact hinstalled

theorem Working.filter (h : Working pump) (hdrains : next.drains = pump.drains)
    (htask : next.drainTask = pump.drainTask) (hconnected : next.connected = pump.connected)
    (hsender : pump.sendIfAuthorized.isSome = true → next.sendIfAuthorized.isSome = true)
    (hqueue : next.queue ≠ [] → pump.queue ≠ []) : Working next where
  drains := by
    rw [hdrains, htask]
    exact h.drains
  active := by
    rw [hconnected, htask]
    exact fun hc hq => h.active hc (hqueue hq)
  installed := by
    rw [hconnected]
    exact fun hc => hsender (h.installed hc)

theorem Working.drain (h : Working pump) {index : Nat} (hlt : index < pump.drains.length) :
    Working (pump.drain index) := by
  have htask : pump.drainTask = true := by
    by_contra hnone
    rw [h.drains, if_neg hnone] at hlt
    exact Nat.not_lt_zero index hlt
  have hone : pump.drains.length = 1 := h.drains.trans (if_pos htask)
  rcases drain_cases pump index with ⟨sender, entry, rest, -, -, -, hdrain⟩ |
      ⟨left, -, hleft, -, hdrain⟩
  · rw [hdrain]
    refine ⟨?_, fun _ _ => htask, h.installed⟩
    rw [List.length_set]
    exact h.drains
  · rw [hdrain]
    refine ⟨?_, fun hconnected hqueue => absurd (hleft hconnected) hqueue, h.installed⟩
    rw [List.length_eraseIdx_of_lt hlt, hone]
    rfl

theorem filter_ne_nil {p : Entry → Bool} {queue : List Entry} (h : queue.filter p ≠ []) :
    queue ≠ [] := by
  rintro rfl
  exact h rfl

theorem Working.step [DecidableEq α] (h : Working pump) (turn : Turn σ α) :
    Working (pump.step turn) := by
  cases turn with
  | attach sender authority order =>
    obtain ⟨queue, issued, hfold⟩ := foldl_queueRetained order (pump.install sender authority)
    show Working (Pump.attach pump sender authority order)
    rw [attach, hfold]
    split_ifs
    · exact h.kick rfl rfl fun _ => rfl
    · exact h.kick rfl rfl fun _ => rfl
  | disconnect =>
    have hclosed : (pump.step .disconnect).connected = false := rfl
    refine ⟨h.drains, fun hconnected => ?_, fun hconnected => ?_⟩
    all_goals
      rw [hclosed] at hconnected
      cases hconnected
  | resetForReplacementSession sender authority =>
    exact h.filter rfl rfl rfl (fun _ => rfl) fun hqueue => absurd rfl hqueue
  | prune retainedStreamIDs | removeStream streamID => exact h.filter rfl rfl rfl id filter_ne_nil
  | enqueueInput streamID data =>
    show Working (pump.enqueueInput streamID data)
    unfold Pump.enqueueInput
    split_ifs
    · exact h
    · exact h.kick rfl rfl h.installed
  | enqueueResize streamID size =>
    show Working (pump.enqueueResize streamID size)
    unfold Pump.enqueueResize
    dsimp only
    split_ifs with hconnected
    · exact h.kick rfl rfl h.installed
    · exact ⟨h.drains, fun hc => absurd hc hconnected, h.installed⟩
  | startDrain index =>
    rcases (step_drain pump index .sent).1 with hsame | ⟨hlt, hdrain⟩
    · rwa [hsame]
    · rw [hdrain]
      exact h.drain hlt
  | sendReturns index result =>
    rcases (step_drain pump index result).2 with hsame | ⟨hlt, hdrain⟩
    · rwa [hsame]
    · rw [hdrain]
      exact h.drain hlt

/-! ### Order -/

def sent (pump : Pump σ α) : List Entry := pump.handed.map (·.entry)

structure Ordered (pump : Pump σ α) : Prop where
  ascending : (sent pump ++ pump.queue).Pairwise fun a b => a.serial < b.serial
  issued : ∀ entry ∈ sent pump ++ pump.queue, pump.issued[entry.serial]? = some entry.item

section

variable (h : Ordered pump)

include h

theorem Ordered.sublist (hentries : (sent next ++ next.queue).Sublist (sent pump ++ pump.queue))
    (hissued : next.issued = pump.issued) : Ordered next where
  ascending := h.ascending.sublist hentries
  issued := by
    intro entry hentry
    rw [hissued]
    exact h.issued entry (hentries.subset hentry)

theorem Ordered.append (items : List Item) : Ordered (pump.append items) := by
  have hold : ∀ entry ∈ sent pump ++ pump.queue, entry.serial < pump.issued.length :=
    fun entry hentry => (List.getElem?_eq_some_iff.mp (h.issued entry hentry)).1
  have hnew : ∀ entry ∈ (items.zipIdx pump.issued.length).map fun p => Entry.mk p.2 p.1,
      pump.issued.length ≤ entry.serial ∧
        items[entry.serial - pump.issued.length]? = some entry.item := by
    intro entry hentry
    obtain ⟨⟨item, serial⟩, hmem, rfl⟩ := List.mem_map.mp hentry
    exact List.mem_zipIdx_iff_le_and_getElem?_sub.mp hmem
  have hentries : sent (pump.append items) ++ (pump.append items).queue =
      (sent pump ++ pump.queue) ++
        (items.zipIdx pump.issued.length).map fun p => Entry.mk p.2 p.1 :=
    (List.append_assoc _ _ _).symm
  constructor
  · rw [hentries, List.pairwise_append]
    refine ⟨h.ascending, ?_, fun a ha b hb => (hold a ha).trans_le (hnew b hb).1⟩
    have hserials := List.pairwise_lt_range' (s := pump.issued.length) (n := items.length)
    rw [← List.zipIdx_map_snd, List.pairwise_map] at hserials
    exact List.pairwise_map.mpr hserials
  · rw [hentries]
    intro entry hentry
    show (pump.issued ++ items)[entry.serial]? = some entry.item
    rcases List.mem_append.mp hentry with hentry | hentry
    · rw [List.getElem?_append_left (hold entry hentry)]
      exact h.issued entry hentry
    · rw [List.getElem?_append_right (hnew entry hentry).1]
      exact (hnew entry hentry).2

theorem Ordered.kick : Ordered pump.kick := by
  refine h.sublist ?_ kick_issued
  rw [sent, kick_handed, kick_queue]
  exact List.Sublist.refl _

theorem Ordered.removeAll (p : Item → Bool) : Ordered (pump.removeAll p) :=
  h.sublist ((List.Sublist.refl _).append List.filter_sublist) rfl

theorem Ordered.queueSize (streamID : NodeId) (size : TerminalSize) :
    Ordered (pump.queueSize streamID size) := (h.removeAll _).append _

theorem Ordered.queueRetained (streamID : NodeId) :
    Ordered (pump.queueRetained streamID) := by
  unfold Pump.queueRetained
  split
  · exact h.queueSize streamID _
  · exact h

theorem Ordered.drain (index : Nat) : Ordered (pump.drain index) := by
  rcases drain_cases pump index with ⟨sender, entry, rest, -, -, hqueue, hdrain⟩ |
      ⟨left, hsuffix, -, -, hdrain⟩
  · rw [hdrain]
    refine h.sublist ?_ rfl
    rw [hqueue, sent, sent, List.map_append, List.append_assoc]
    exact List.Sublist.refl _
  · rw [hdrain]
    exact h.sublist ((List.Sublist.refl _).append hsuffix.sublist) rfl

theorem Ordered.step [DecidableEq α] (turn : Turn σ α) :
    Ordered (pump.step turn) := by
  cases turn with
  | attach sender authority order =>
    have hinstalled : Ordered (pump.install sender authority) := ⟨h.ascending, h.issued⟩
    show Ordered (Pump.attach pump sender authority order)
    rw [attach]
    refine Ordered.kick ?_
    split_ifs
    · exact hinstalled
    · exact List.foldlRecOn order _ hinstalled fun next hnext streamID _ =>
        hnext.queueRetained streamID
  | disconnect | removeStream streamID =>
    exact h.sublist ((List.Sublist.refl _).append List.filter_sublist) rfl
  | resetForReplacementSession sender authority =>
    exact h.sublist ((List.Sublist.refl _).append (List.nil_sublist _)) rfl
  | prune retainedStreamIDs =>
    exact h.sublist ((List.Sublist.refl _).append List.filter_sublist) rfl
  | enqueueInput streamID data =>
    show Ordered (pump.enqueueInput streamID data)
    unfold Pump.enqueueInput
    split_ifs
    · exact h
    · exact (h.append _).kick
  | enqueueResize streamID size =>
    have hretained : Ordered
        { pump with latestSize := Function.update pump.latestSize streamID (some size) } :=
      ⟨h.ascending, h.issued⟩
    show Ordered (pump.enqueueResize streamID size)
    unfold Pump.enqueueResize
    dsimp only
    split_ifs
    · exact (hretained.queueSize streamID size).kick
    · exact hretained
  | startDrain index =>
    rcases (step_drain pump index .sent).1 with hsame | ⟨-, hdrain⟩
    · rwa [hsame]
    · rw [hdrain]
      exact h.drain index
  | sendReturns index result =>
    rcases (step_drain pump index result).2 with hsame | ⟨-, hdrain⟩
    · rwa [hsame]
    · rw [hdrain]
      exact h.drain index

end

theorem step_handed [DecidableEq α] (pump : Pump σ α) (turn : Turn σ α) :
    (pump.step turn).handed = pump.handed ∨
    ∃ sender entry rest, pump.connected = true ∧ pump.sendIfAuthorized = some sender ∧
      pump.queue = entry :: rest ∧ (pump.step turn).queue = rest ∧
      (pump.step turn).handed = pump.handed ++ [⟨sender, entry⟩] := by
  have hdrain : ∀ index, (pump.drain index).handed = pump.handed ∨
      ∃ sender entry rest, pump.connected = true ∧ pump.sendIfAuthorized = some sender ∧
        pump.queue = entry :: rest ∧ (pump.drain index).queue = rest ∧
        (pump.drain index).handed = pump.handed ++ [⟨sender, entry⟩] := by
    intro index
    rcases drain_cases pump index with ⟨sender, entry, rest, hconnected, hsender, hqueue, hdrain⟩ |
        ⟨left, -, -, -, hdrain⟩
    · refine Or.inr ⟨sender, entry, rest, hconnected, hsender, hqueue, ?_, ?_⟩
      · rw [hdrain]
      · rw [hdrain]
    · exact Or.inl (by rw [hdrain])
  cases turn with
  | attach sender authority order =>
    obtain ⟨queue, issued, hfold⟩ := foldl_queueRetained order (pump.install sender authority)
    refine Or.inl ?_
    show (Pump.attach pump sender authority order).handed = pump.handed
    rw [attach, kick_handed, hfold]
    split_ifs <;> rfl
  | disconnect | resetForReplacementSession sender authority | prune retainedStreamIDs
  | removeStream streamID => exact Or.inl rfl
  | enqueueInput streamID data =>
    refine Or.inl ?_
    show (pump.enqueueInput streamID data).handed = pump.handed
    unfold Pump.enqueueInput
    split_ifs
    · rfl
    · exact kick_handed
  | enqueueResize streamID size =>
    refine Or.inl ?_
    show (pump.enqueueResize streamID size).handed = pump.handed
    unfold Pump.enqueueResize
    dsimp only
    split_ifs
    · exact kick_handed
    · rfl
  | startDrain index =>
    rcases (step_drain pump index .sent).1 with hsame | ⟨-, hsame⟩
    · exact Or.inl (congrArg handed hsame)
    · rw [hsame]
      exact hdrain index
  | sendReturns index result =>
    rcases (step_drain pump index result).2 with hsame | ⟨-, hsame⟩
    · exact Or.inl (congrArg handed hsame)
    · rw [hsame]
      exact hdrain index

/-! ### Sizes -/

variable {streamID other : NodeId} {size : TerminalSize}

theorem isResizeOf_resizeItem :
    isResizeOf streamID (resizeItem other size) = decide (other = streamID) :=
  rfl

theorem resizeItem_inj {size' : TerminalSize}
    (h : resizeItem streamID size = resizeItem other size') :
    streamID = other ∧ size = size' := by
  rcases size with ⟨columns, rows, pixelWidth, pixelHeight⟩
  rcases size' with ⟨columns', rows', pixelWidth', pixelHeight'⟩
  obtain ⟨rfl, rfl, rfl, rfl, rfl⟩ := Item.resize.inj h
  exact ⟨rfl, rfl⟩

theorem mem_queueSize {entry : Entry} : entry ∈ (pump.queueSize streamID size).queue ↔
    entry ∈ pump.queue ∧ isResizeOf streamID entry.item = false ∨
      entry = ⟨pump.issued.length, resizeItem streamID size⟩ := by
  show entry ∈ pump.queue.filter _ ++ [_] ↔ _
  rw [List.mem_append, List.mem_filter, List.mem_singleton, Bool.not_eq_true']
  exact Iff.rfl

structure Sized (pump : Pump σ α) : Prop where
  single : ∀ streamID,
    (pump.queue.filter fun entry => isResizeOf streamID entry.item).length ≤ 1
  known : ∀ entry ∈ pump.queue, ∀ streamID size, entry.item = resizeItem streamID size →
    (pump.latestSize streamID).isSome = true

def Current (pump : Pump σ α) (streamID : NodeId) : Prop :=
  ∀ entry ∈ pump.queue, ∀ size, entry.item = resizeItem streamID size →
    pump.latestSize streamID = some size

def Queued (pump : Pump σ α) (streamID : NodeId) (size : TerminalSize) : Prop :=
  ∃ entry ∈ pump.queue, entry.item = resizeItem streamID size

theorem Sized.filter (h : Sized pump) (hqueue : next.queue.Sublist pump.queue)
    (hlatest : ∀ entry ∈ next.queue, ∀ streamID size, entry.item = resizeItem streamID size →
      (pump.latestSize streamID).isSome = true → (next.latestSize streamID).isSome = true) :
    Sized next where
  single := fun streamID => ((hqueue.filter _).length_le).trans (h.single streamID)
  known := fun entry hentry streamID size hitem =>
    hlatest entry hentry streamID size hitem
      (h.known entry (hqueue.subset hentry) streamID size hitem)

theorem Sized.queueSize (h : Sized pump) (hsize : (pump.latestSize streamID).isSome = true)
    (size : TerminalSize) : Sized (pump.queueSize streamID size) where
  single := by
    intro other
    have hqueue : (pump.queueSize streamID size).queue =
        (pump.removeAll (isResizeOf streamID)).queue ++ [⟨pump.issued.length, resizeItem streamID size⟩] := rfl
    have hsub := ((List.filter_sublist (p := fun entry => !isResizeOf streamID entry.item)
      (l := pump.queue)).filter fun entry => isResizeOf other entry.item).length_le
    rw [hqueue, List.filter_append, List.length_append, List.filter_singleton,
      isResizeOf_resizeItem]
    by_cases hsame : streamID = other
    · subst hsame
      have hnone : (pump.removeAll (isResizeOf streamID)).queue.filter
          (fun entry => isResizeOf streamID entry.item) = [] := by
        rw [List.filter_eq_nil_iff]
        intro entry hentry
        rw [Bool.not_eq_true, ← Bool.not_eq_true']
        exact (List.mem_filter.mp hentry).2
      rw [hnone, decide_eq_true rfl]
      exact Nat.le_refl 1
    · rw [decide_eq_false hsame]
      exact hsub.trans (h.single other)
  known := by
    intro entry hentry other size' hitem
    rcases mem_queueSize.mp hentry with ⟨hentry, -⟩ | rfl
    · exact h.known entry hentry other size' hitem
    · obtain ⟨rfl, -⟩ := resizeItem_inj hitem
      exact hsize

theorem Current.queueSize (hsize : pump.latestSize streamID = some size)
    (h : other = streamID ∨ Current pump other) : Current (pump.queueSize streamID size) other := by
  intro entry hentry size' hitem
  rcases mem_queueSize.mp hentry with ⟨hentry, hother⟩ | rfl
  · rcases h with rfl | h
    · rw [hitem, isResizeOf_resizeItem, decide_eq_false_iff_not] at hother
      exact absurd rfl hother
    · exact h entry hentry size' hitem
  · obtain ⟨rfl, rfl⟩ := resizeItem_inj hitem
    exact hsize

theorem Queued.queueSize {size' : TerminalSize}
    (h : other = streamID ∧ size' = size ∨ other ≠ streamID ∧ Queued pump other size') :
    Queued (pump.queueSize streamID size) other size' := by
  rcases h with ⟨rfl, rfl⟩ | ⟨hne, entry, hentry, hitem⟩
  · exact ⟨_, mem_queueSize.mpr (Or.inr rfl), rfl⟩
  · refine ⟨entry, mem_queueSize.mpr (Or.inl ⟨hentry, ?_⟩), hitem⟩
    rw [hitem, isResizeOf_resizeItem]
    exact decide_eq_false hne

theorem Sized.current (h : Sized pump) (hnone : pump.latestSize streamID = none) :
    Current pump streamID := by
  intro entry hentry size hitem
  have hsome := h.known entry hentry streamID size hitem
  rw [hnone] at hsome
  cases hsome

theorem Sized.foldl (order : List NodeId) (h : Sized pump) :
    Sized (order.foldl queueRetained pump) ∧
    (∀ streamID, streamID ∈ order ∨ Current pump streamID →
      Current (order.foldl queueRetained pump) streamID) ∧
    ∀ streamID size, pump.latestSize streamID = some size →
      streamID ∈ order ∨ Queued pump streamID size →
      Queued (order.foldl queueRetained pump) streamID size := by
  induction order generalizing pump with
  | nil =>
    exact ⟨h, fun streamID hcase => hcase.resolve_left List.not_mem_nil,
      fun streamID size _ hcase => hcase.resolve_left List.not_mem_nil⟩
  | cons first rest ih =>
    rw [List.foldl_cons, Pump.queueRetained]
    rcases hsize : pump.latestSize first with - | size
    · obtain ⟨hsized, hcurrent, hqueued⟩ := ih h
      refine ⟨hsized, ?_, ?_⟩
      · rintro streamID (hmem | hcase)
        · rcases List.mem_cons.mp hmem with rfl | hmem
          · exact hcurrent _ (Or.inr (h.current hsize))
          · exact hcurrent _ (Or.inl hmem)
        · exact hcurrent _ (Or.inr hcase)
      · rintro streamID size' hlatest (hmem | hcase)
        · rcases List.mem_cons.mp hmem with rfl | hmem
          · rw [hsize] at hlatest
            cases hlatest
          · exact hqueued _ _ hlatest (Or.inl hmem)
        · exact hqueued _ _ hlatest (Or.inr hcase)
    · obtain ⟨hsized, hcurrent, hqueued⟩ := ih (h.queueSize (by rw [hsize]; rfl) size)
      refine ⟨hsized, ?_, ?_⟩
      · rintro streamID (hmem | hcase)
        · rcases List.mem_cons.mp hmem with rfl | hmem
          · exact hcurrent _ (Or.inr (Current.queueSize hsize (Or.inl rfl)))
          · exact hcurrent _ (Or.inl hmem)
        · exact hcurrent _ (Or.inr (Current.queueSize hsize (Or.inr hcase)))
      · intro streamID size' hlatest hcase
        refine hqueued streamID size' hlatest ?_
        by_cases hsame : streamID = first
        · subst hsame
          rw [hsize] at hlatest
          exact Or.inr (Queued.queueSize (Or.inl ⟨rfl, (Option.some.inj hlatest).symm⟩))
        · exact hcase.imp (fun hmem => (List.mem_cons.mp hmem).resolve_left hsame)
            fun hqueued => Queued.queueSize (Or.inr ⟨hsame, hqueued⟩)

theorem Current.subset (h : Current pump streamID) (hqueue : next.queue ⊆ pump.queue)
    (hlatest : next.latestSize streamID = pump.latestSize streamID) : Current next streamID := by
  intro entry hentry size hitem
  rw [hlatest]
  exact h entry (hqueue hentry) size hitem

theorem mem_append_inputs {data : List Bytes} {entry : Entry}
    (h : entry ∈ (pump.append (data.map (Item.input streamID))).queue) :
    entry ∈ pump.queue ∨ ∃ chunk, entry.item = .input streamID chunk := by
  refine (List.mem_append.mp h).imp_right ?_
  intro hmem
  obtain ⟨⟨item, serial⟩, hzip, rfl⟩ := List.mem_map.mp hmem
  obtain ⟨chunk, -, rfl⟩ := List.mem_map.mp (List.fst_mem_of_mem_zipIdx hzip)
  exact ⟨chunk, rfl⟩

theorem Sized.append_inputs (h : Sized pump) (streamID : NodeId) (data : List Bytes) :
    Sized (pump.append (data.map (Item.input streamID))) where
  single := by
    intro other
    have hinputs : (((data.map (Item.input streamID)).zipIdx pump.issued.length).map
        fun p => Entry.mk p.2 p.1).filter (fun entry => isResizeOf other entry.item) = [] := by
      rw [List.filter_eq_nil_iff]
      intro entry hmem
      obtain ⟨⟨item, serial⟩, hzip, rfl⟩ := List.mem_map.mp hmem
      obtain ⟨chunk, -, rfl⟩ := List.mem_map.mp (List.fst_mem_of_mem_zipIdx hzip)
      exact Bool.false_ne_true
    show ((pump.queue ++ _).filter _).length ≤ 1
    rw [List.filter_append, hinputs, List.append_nil]
    exact h.single other
  known := by
    intro entry hentry other size hitem
    rcases mem_append_inputs hentry with hentry | ⟨chunk, hinput⟩
    · exact h.known entry hentry other size hitem
    · rw [hinput] at hitem
      cases hitem

theorem Current.append_inputs (h : Current pump other) (streamID : NodeId) (data : List Bytes) :
    Current (pump.append (data.map (Item.input streamID))) other := by
  intro entry hentry size hitem
  rcases mem_append_inputs hentry with hentry | ⟨chunk, hinput⟩
  · exact h entry hentry size hitem
  · rw [hinput] at hitem
    cases hitem

/-- What is queued of sizes: while connected, the retained ones. -/
structure Telling (pump : Pump σ α) : Prop where
  sized : Sized pump
  current : pump.connected = true → ∀ streamID, Current pump streamID

theorem Telling.filter (h : Telling pump) (hqueue : next.queue.Sublist pump.queue)
    (hlatest : ∀ entry ∈ next.queue, ∀ streamID size, entry.item = resizeItem streamID size →
      next.latestSize streamID = pump.latestSize streamID)
    (hconnected : next.connected = true → pump.connected = true) : Telling next where
  sized := by
    refine h.sized.filter hqueue fun entry hentry streamID size hitem hsome => ?_
    rwa [hlatest entry hentry streamID size hitem]
  current := by
    intro hopen streamID entry hentry size hitem
    rw [hlatest entry hentry streamID size hitem]
    exact h.current (hconnected hopen) streamID entry (hqueue.subset hentry) size hitem

theorem Telling.kick (h : Telling pump) : Telling pump.kick :=
  h.filter (by rw [kick_queue]) (fun _ _ _ _ _ => by rw [kick_latestSize])
    fun hopen => by rwa [kick_connected] at hopen

theorem Telling.drain (h : Telling pump) (index : Nat) : Telling (pump.drain index) := by
  rcases drain_cases pump index with ⟨sender, entry, rest, -, -, hqueue, hdrain⟩ |
      ⟨left, hsuffix, -, -, hdrain⟩
  · rw [hdrain]
    refine h.filter ?_ (fun _ _ _ _ _ => rfl) id
    rw [hqueue]
    exact List.sublist_cons_self entry rest
  · rw [hdrain]
    exact h.filter hsuffix.sublist (fun _ _ _ _ _ => rfl) id

variable {turn : Turn σ α}

theorem Telling.step [DecidableEq α] (h : Telling pump) (hlegal : Legal pump turn) :
    Telling (pump.step turn) := by
  cases turn with
  | attach sender authority order =>
    have hinstalled : Sized (pump.install sender authority) := ⟨h.sized.single, h.sized.known⟩
    show Telling (Pump.attach pump sender authority order)
    rw [attach]
    refine Telling.kick ?_
    split_ifs with hsame
    · have hconnected : pump.connected = true := by
        rw [sameAuthority, Bool.and_eq_true, Bool.and_eq_true] at hsame
        exact hsame.1.1
      exact ⟨hinstalled, fun _ => h.current hconnected⟩
    · obtain ⟨hsized, hcurrent, -⟩ := hinstalled.foldl order
      refine ⟨hsized, fun _ streamID => hcurrent streamID ?_⟩
      by_cases hmem : streamID ∈ order
      · exact Or.inl hmem
      · refine Or.inr (hinstalled.current ?_)
        rw [hlegal.2, Bool.not_eq_true, Option.isSome_eq_false_iff,
          Option.isNone_iff_eq_none] at hmem
        exact hmem
  | disconnect =>
    exact h.filter List.filter_sublist (fun _ _ _ _ _ => rfl)
      fun hopen => absurd hopen Bool.false_ne_true
  | resetForReplacementSession sender authority =>
    exact ⟨⟨fun _ => Nat.zero_le 1, fun _ hentry => absurd hentry List.not_mem_nil⟩,
      fun _ _ _ hentry => absurd hentry List.not_mem_nil⟩
  | prune retainedStreamIDs =>
    refine h.filter List.filter_sublist ?_ id
    intro entry hentry streamID size hitem
    have hkept := (List.mem_filter.mp hentry).2
    rw [hitem, Bool.not_eq_true', decide_eq_false_iff_not, not_not] at hkept
    exact if_pos hkept
  | removeStream removed =>
    refine h.filter List.filter_sublist ?_ id
    intro entry hentry streamID size hitem
    have hkept := (List.mem_filter.mp hentry).2
    rw [hitem, Bool.not_eq_true', decide_eq_false_iff_not] at hkept
    exact Function.update_of_ne hkept _ _
  | enqueueInput streamID data =>
    show Telling (pump.enqueueInput streamID data)
    unfold Pump.enqueueInput
    split_ifs
    · exact h
    · refine Telling.kick ⟨h.sized.append_inputs streamID _, fun hconnected other => ?_⟩
      exact (h.current hconnected other).append_inputs streamID _
  | enqueueResize streamID size =>
    show Telling (pump.enqueueResize streamID size)
    unfold Pump.enqueueResize
    dsimp only
    have hsize : Function.update pump.latestSize streamID (some size) streamID = some size :=
      Function.update_self _ _ _
    have hretained : Sized
        { pump with latestSize := Function.update pump.latestSize streamID (some size) } := by
      refine h.sized.filter (List.Sublist.refl _) fun _ _ other _ _ hsome => ?_
      by_cases hsame : other = streamID
      · subst hsame
        show (Function.update pump.latestSize other (some size) other).isSome = true
        rw [hsize]
        rfl
      · show (Function.update pump.latestSize streamID (some size) other).isSome = true
        rwa [Function.update_of_ne hsame]
    split_ifs with hconnected
    · refine Telling.kick
        ⟨hretained.queueSize (Option.isSome_iff_exists.mpr ⟨size, hsize⟩) size, fun _ other => ?_⟩
      refine Current.queueSize hsize ?_
      by_cases hsame : other = streamID
      · exact Or.inl hsame
      · exact Or.inr ((h.current hconnected other).subset (List.Subset.refl _)
          (Function.update_of_ne hsame _ _))
    · exact ⟨hretained, fun hc => absurd hc hconnected⟩
  | startDrain index =>
    rcases (step_drain pump index .sent).1 with hsame | ⟨-, hdrain⟩
    · rwa [hsame]
    · rw [hdrain]
      exact h.drain index
  | sendReturns index result =>
    rcases (step_drain pump index result).2 with hsame | ⟨-, hdrain⟩
    · rwa [hsame]
    · rw [hdrain]
      exact h.drain index

/-! ### After a disconnect -/

/-- What a turn adds to the queue has a serial that no entry had before. -/
structure Extends (pump next : Pump σ α) : Prop where
  issued : pump.issued.length ≤ next.issued.length
  queue : ∀ entry ∈ next.queue, entry ∈ pump.queue ∨ pump.issued.length ≤ entry.serial

theorem Extends.subset (hissued : next.issued = pump.issued) (hsubset : next.queue ⊆ pump.queue) :
    Extends pump next where
  issued := by rw [hissued]
  queue := fun _ hentry => Or.inl (hsubset hentry)

theorem Extends.append (h : Extends pump next) (items : List Item) :
    Extends pump (next.append items) where
  issued := by
    show _ ≤ (next.issued ++ items).length
    rw [List.length_append]
    exact h.issued.trans (Nat.le_add_right _ _)
  queue := by
    intro entry hentry
    rcases List.mem_append.mp hentry with hentry | hentry
    · exact h.queue entry hentry
    · obtain ⟨⟨item, serial⟩, hzip, rfl⟩ := List.mem_map.mp hentry
      exact Or.inr (h.issued.trans (List.le_snd_of_mem_zipIdx hzip))

theorem Extends.removeAll (h : Extends pump next) (p : Item → Bool) :
    Extends pump (next.removeAll p) where
  issued := h.issued
  queue := fun entry hentry => h.queue entry (List.mem_of_mem_filter hentry)

theorem Extends.queueRetained (h : Extends pump next) (streamID : NodeId) :
    Extends pump (next.queueRetained streamID) := by
  unfold Pump.queueRetained
  split
  · exact (h.removeAll _).append _
  · exact h

theorem Extends.kick (h : Extends pump next) : Extends pump next.kick where
  issued := by
    rw [kick_issued]
    exact h.issued
  queue := by
    rw [kick_queue]
    exact h.queue

theorem Extends.drain (pump : Pump σ α) (index : Nat) : Extends pump (pump.drain index) := by
  rcases drain_cases pump index with ⟨sender, entry, rest, -, -, hqueue, hdrain⟩ |
      ⟨left, hsuffix, -, -, hdrain⟩
  · rw [hdrain]
    refine .subset rfl ?_
    rw [hqueue]
    exact List.subset_cons_self entry rest
  · rw [hdrain]
    exact .subset rfl hsuffix.subset

theorem Extends.step [DecidableEq α] (pump : Pump σ α) (turn : Turn σ α) :
    Extends pump (pump.step turn) := by
  have hrefl : Extends pump pump := .subset rfl (List.Subset.refl _)
  cases turn with
  | attach sender authority order =>
    have hinstalled : Extends pump (pump.install sender authority) := ⟨hrefl.issued, hrefl.queue⟩
    show Extends pump (Pump.attach pump sender authority order)
    rw [attach]
    refine Extends.kick ?_
    split_ifs
    · exact hinstalled
    · exact List.foldlRecOn order _ hinstalled fun next hnext streamID _ =>
        hnext.queueRetained streamID
  | disconnect | prune retainedStreamIDs | removeStream streamID =>
    exact .subset rfl List.filter_sublist.subset
  | resetForReplacementSession sender authority => exact .subset rfl (List.nil_subset _)
  | enqueueInput streamID data =>
    show Extends pump (pump.enqueueInput streamID data)
    unfold Pump.enqueueInput
    split_ifs
    · exact hrefl
    · exact (hrefl.append _).kick
  | enqueueResize streamID size =>
    show Extends pump (pump.enqueueResize streamID size)
    unfold Pump.enqueueResize
    dsimp only
    have hretained : Extends pump
        { pump with latestSize := Function.update pump.latestSize streamID (some size) } :=
      ⟨hrefl.issued, hrefl.queue⟩
    split_ifs
    · exact ((hretained.removeAll _).append _).kick
    · exact hretained
  | startDrain index =>
    rcases (step_drain pump index .sent).1 with hsame | ⟨-, hdrain⟩
    · rwa [hsame]
    · rw [hdrain]
      exact .drain pump index
  | sendReturns index result =>
    rcases (step_drain pump index result).2 with hsame | ⟨-, hdrain⟩
    · rwa [hsame]
    · rw [hdrain]
      exact .drain pump index

/-- Past a point of the run, no input is queued or handed over that was queued before it. -/
structure Severed (mark base : Nat) (pump : Pump σ α) : Prop where
  issued : mark ≤ pump.issued.length
  length : base ≤ pump.handed.length
  queued : ∀ entry ∈ pump.queue, isInput entry.item = true → mark ≤ entry.serial
  handed : ∀ handing ∈ pump.handed.drop base, isInput handing.entry.item = true →
    mark ≤ handing.entry.serial

theorem Severed.disconnect (pump : Pump σ α) :
    Severed pump.disconnect.issued.length pump.disconnect.handed.length pump.disconnect where
  issued := Nat.le_refl _
  length := Nat.le_refl _
  queued := by
    intro entry hentry hinput
    have hkept := (List.mem_filter.mp hentry).2
    rw [hinput] at hkept
    cases hkept
  handed := by
    intro handing hmem
    rw [List.drop_length] at hmem
    exact absurd hmem List.not_mem_nil

variable {base : Nat}

theorem Severed.step [DecidableEq α] {mark : Nat} (h : Severed mark base pump) (turn : Turn σ α) :
    Severed mark base (pump.step turn) := by
  have hextends := Extends.step pump turn
  refine ⟨h.issued.trans hextends.issued, ?_, ?_, ?_⟩
  · rcases step_handed pump turn with hsame | ⟨sender, entry, rest, -, -, -, -, hhanded⟩
    · rw [hsame]
      exact h.length
    · rw [hhanded, List.length_append]
      exact h.length.trans (Nat.le_add_right _ _)
  · intro entry hentry hinput
    rcases hextends.queue entry hentry with hold | hnew
    · exact h.queued entry hold hinput
    · exact h.issued.trans hnew
  · rcases step_handed pump turn with hsame | ⟨sender, entry, rest, -, -, hqueue, -, hhanded⟩
    · rw [hsame]
      exact h.handed
    · rw [hhanded, List.drop_append_of_le_length h.length]
      intro handing hmem hinput
      rcases List.mem_append.mp hmem with hmem | hmem
      · exact h.handed handing hmem hinput
      · obtain rfl := List.mem_singleton.mp hmem
        exact h.queued entry (by rw [hqueue]; exact List.mem_cons_self) hinput

/-! ### Under one authority -/

/-- The turn leaves the pump connected, and the authority installed. -/
def Keeps [DecidableEq α] (pump : Pump σ α) : Turn σ α → Prop
  | .attach _ authority _ => pump.sameAuthority authority = true
  | .disconnect => False
  | .resetForReplacementSession _ _ => False
  | _ => True

def Handed (base : Nat) (pump : Pump σ α) (streamID : NodeId) (size : TerminalSize) : Prop :=
  ∃ handing ∈ pump.handed.drop base, handing.entry.item = resizeItem streamID size

/-- Past that point, every retained size was handed over or is queued. -/
structure Told (base : Nat) (pump : Pump σ α) : Prop where
  connected : pump.connected = true
  length : base ≤ pump.handed.length
  told : ∀ streamID size, pump.latestSize streamID = some size →
    Queued pump streamID size ∨ Handed base pump streamID size

theorem Queued.mono (h : Queued pump streamID size)
    (hqueue : ∀ entry ∈ pump.queue, entry.item = resizeItem streamID size → entry ∈ next.queue) :
    Queued next streamID size := by
  obtain ⟨entry, hentry, hitem⟩ := h
  exact ⟨entry, hqueue entry hentry hitem, hitem⟩

theorem Told.mono (h : Told base pump) (hconnected : next.connected = true)
    (hhanded : next.handed = pump.handed)
    (htold : ∀ streamID size, next.latestSize streamID = some size →
      Queued next streamID size ∨ pump.latestSize streamID = some size ∧
        (Queued pump streamID size → Queued next streamID size)) : Told base next where
  connected := hconnected
  length := by
    rw [hhanded]
    exact h.length
  told := by
    intro streamID size hsize
    rcases htold streamID size hsize with hqueued | ⟨hold, hkept⟩
    · exact Or.inl hqueued
    · refine (h.told streamID size hold).imp hkept ?_
      rw [Handed, Handed, hhanded]
      exact id

theorem Told.kick (h : Told base pump) : Told base pump.kick := by
  refine h.mono ?_ kick_handed ?_
  · rw [kick_connected]
    exact h.connected
  · intro streamID size hsize
    rw [kick_latestSize] at hsize
    refine Or.inr ⟨hsize, fun hqueued => hqueued.mono fun entry hentry _ => ?_⟩
    rwa [kick_queue]

theorem Told.drain (h : Told base pump) (hinstalled : pump.sendIfAuthorized.isSome = true)
    (index : Nat) :
    Told base (pump.drain index) := by
  rcases drain_cases pump index with ⟨sender, first, rest, -, -, hqueue, hdrain⟩ |
      ⟨left, -, -, hnone, hdrain⟩
  · have hhanded : (pump.drain index).handed.drop base =
        pump.handed.drop base ++ [⟨sender, first⟩] := by
      rw [hdrain]
      exact List.drop_append_of_le_length h.length
    refine ⟨?_, ?_, ?_⟩
    · rw [hdrain]
      exact h.connected
    · rw [hdrain, List.length_append]
      exact h.length.trans (Nat.le_add_right _ _)
    · intro streamID size hsize
      rw [hdrain] at hsize
      rcases h.told streamID size hsize with ⟨entry, hentry, hitem⟩ | ⟨handing, hmem, hitem⟩
      · rw [hqueue] at hentry
        rcases List.mem_cons.mp hentry with rfl | hentry
        · refine Or.inr ⟨⟨sender, entry⟩, ?_, hitem⟩
          rw [hhanded]
          exact List.mem_append_right _ (List.mem_singleton_self _)
        · refine Or.inl ⟨entry, ?_, hitem⟩
          rwa [hdrain]
      · refine Or.inr ⟨handing, ?_, hitem⟩
        rw [hhanded]
        exact List.mem_append_left _ hmem
  · have hempty := hnone h.connected hinstalled
    rw [hdrain]
    refine h.mono h.connected rfl fun streamID size hsize => Or.inr ⟨hsize, ?_⟩
    rintro ⟨entry, hentry, -⟩
    rw [hempty] at hentry
    exact absurd hentry List.not_mem_nil

theorem Told.attach [DecidableEq α] (htelling : Telling pump) {sender : σ} {authority : Option α}
    {order : List NodeId} (hlegal : Legal pump (.attach sender authority order))
    (hnew : pump.sameAuthority authority = false) :
    Told (pump.attach sender authority order).handed.length
      (pump.attach sender authority order) := by
  have hinstalled : Sized (pump.install sender authority) :=
    ⟨htelling.sized.single, htelling.sized.known⟩
  obtain ⟨-, -, hqueued⟩ := hinstalled.foldl order
  obtain ⟨queue, issued, hfold⟩ := foldl_queueRetained order (pump.install sender authority)
  rw [Pump.attach, if_neg (by rw [hnew]; exact Bool.false_ne_true), kick_handed]
  refine Told.kick ⟨?_, Nat.le_refl _, ?_⟩
  · rw [hfold]
    rfl
  · intro streamID size hsize
    rw [hfold] at hsize
    have hlisted : streamID ∈ order := by
      rw [hlegal.2]
      exact Option.isSome_iff_exists.mpr ⟨size, hsize⟩
    exact Or.inl (hqueued streamID size hsize (Or.inl hlisted))

theorem Told.step [DecidableEq α] (h : Told base pump) (hworking : Working pump)
    (hkeeps : Keeps pump turn) : Told base (pump.step turn) := by
  cases turn with
  | attach sender authority order =>
    have hsame : pump.sameAuthority authority = true := hkeeps
    show Told base (Pump.attach pump sender authority order)
    rw [Pump.attach, if_pos hsame]
    exact Told.kick (h.mono rfl rfl fun _ _ hsize => Or.inr ⟨hsize, id⟩)
  | disconnect => exact hkeeps.elim
  | resetForReplacementSession sender authority => exact hkeeps.elim
  | prune retainedStreamIDs =>
    refine h.mono h.connected rfl fun streamID size hsize => Or.inr ?_
    have hretained : streamID ∈ retainedStreamIDs := by
      by_contra hpruned
      rw [show (pump.step (.prune retainedStreamIDs)).latestSize streamID = none from
        if_neg hpruned] at hsize
      cases hsize
    refine ⟨(if_pos hretained).symm.trans hsize, fun hqueued => hqueued.mono ?_⟩
    intro entry hentry hitem
    refine List.mem_filter.mpr ⟨hentry, ?_⟩
    rw [hitem, Bool.not_eq_true', decide_eq_false_iff_not, not_not]
    exact hretained
  | removeStream removed =>
    refine h.mono h.connected rfl fun streamID size hsize => Or.inr ?_
    have hretained : streamID ≠ removed := by
      rintro rfl
      rw [show (pump.step (.removeStream streamID)).latestSize streamID = none from
        Function.update_self _ _ _] at hsize
      cases hsize
    refine ⟨(Function.update_of_ne hretained _ _).symm.trans hsize, fun hqueued => hqueued.mono ?_⟩
    intro entry hentry hitem
    refine List.mem_filter.mpr ⟨hentry, ?_⟩
    rw [hitem, Bool.not_eq_true', decide_eq_false_iff_not]
    exact hretained
  | enqueueInput streamID data =>
    show Told base (pump.enqueueInput streamID data)
    unfold Pump.enqueueInput
    split_ifs
    · exact h
    · refine Told.kick (h.mono h.connected rfl fun other size hsize => Or.inr ⟨hsize, ?_⟩)
      exact fun hqueued => hqueued.mono fun entry hentry _ => List.mem_append_left _ hentry
  | enqueueResize resized latest =>
    show Told base (pump.enqueueResize resized latest)
    unfold Pump.enqueueResize
    dsimp only
    rw [if_pos h.connected]
    refine Told.kick (h.mono h.connected rfl fun streamID size hsize => ?_)
    have hupdated : Function.update pump.latestSize resized (some latest) streamID = some size :=
      hsize
    by_cases hsame : streamID = resized
    · subst hsame
      rw [Function.update_self] at hupdated
      exact Or.inl (Queued.queueSize (Or.inl ⟨rfl, (Option.some.inj hupdated).symm⟩))
    · rw [Function.update_of_ne hsame] at hupdated
      exact Or.inr ⟨hupdated, fun hqueued => Queued.queueSize (Or.inr ⟨hsame, hqueued⟩)⟩
  | startDrain index =>
    rcases (step_drain pump index .sent).1 with hsame | ⟨-, hdrain⟩
    · rwa [hsame]
    · rw [hdrain]
      exact h.drain (hworking.installed h.connected) index
  | sendReturns index result =>
    rcases (step_drain pump index result).2 with hsame | ⟨-, hdrain⟩
    · rwa [hsame]
    · rw [hdrain]
      exact h.drain (hworking.installed h.connected) index

/-! ### Runs -/

structure Sound (pump : Pump σ α) : Prop where
  working : Working pump
  ordered : Ordered pump
  telling : Telling pump

theorem Sound.new : Sound ({} : Pump σ α) where
  working := ⟨rfl, fun hconnected => absurd hconnected Bool.false_ne_true,
    fun hconnected => absurd hconnected Bool.false_ne_true⟩
  ordered := ⟨List.Pairwise.nil, fun _ hentry => absurd hentry List.not_mem_nil⟩
  telling := ⟨⟨fun _ => Nat.zero_le 1, fun _ hentry => absurd hentry List.not_mem_nil⟩,
    fun hconnected => absurd hconnected Bool.false_ne_true⟩

theorem Sound.step [DecidableEq α] (h : Sound pump) (hlegal : Legal pump turn) :
    Sound (pump.step turn) :=
  ⟨h.working.step turn, h.ordered.step turn, h.telling.step hlegal⟩

theorem Sound.run [DecidableEq α] (h : Sound pump) {turns : List (Turn σ α)}
    (hlegal : EveryStep Pump.step Legal pump turns) : Sound (run Pump.step pump turns) :=
  hlegal.invariant (fun _ _ hsound hlegal => hsound.step hlegal) h

theorem Told.run [DecidableEq α] (h : Told base pump) (hsound : Sound pump)
    {turns : List (Turn σ α)}
    (hkeeps : EveryStep Pump.step (fun s turn => Legal s turn ∧ Keeps s turn) pump turns) :
    Told base (Basic.Runs.run Pump.step pump turns) ∧
      Sound (Basic.Runs.run Pump.step pump turns) := by
  refine hkeeps.invariant (P := fun s => Told base s ∧ Sound s) ?_ ⟨h, hsound⟩
  intro s turn hinv hturn
  exact ⟨hinv.1.step hinv.2.working hturn.2, hinv.2.step hturn.1⟩

theorem Told.before_input [DecidableEq α] (h : Told base pump) (hordered : Ordered pump)
    {handing : Handing σ} (hhanded : (pump.step turn).handed = pump.handed ++ [handing])
    (hinput : isInput handing.entry.item = true) {streamID : NodeId} {size : TerminalSize}
    (hsize : pump.latestSize streamID = some size) :
    Handed base pump streamID size ∨ ∃ entry ∈ (pump.step turn).queue,
      entry.item = resizeItem streamID size ∧ handing.entry.serial < entry.serial := by
  rcases h.told streamID size hsize with ⟨entry, hentry, hitem⟩ | htold
  · refine Or.inr ?_
    rcases step_handed pump turn with hsame | ⟨sender, first, rest, -, -, hqueue, hrest, hhanded'⟩
    · rw [hsame] at hhanded
      exact absurd (List.self_eq_append_right.mp hhanded) (List.cons_ne_nil _ _)
    · rw [hhanded'] at hhanded
      obtain rfl := List.singleton_inj.mp (List.append_cancel_left hhanded)
      rw [hqueue] at hentry
      rcases List.mem_cons.mp hentry with rfl | hentry
      · rw [hitem] at hinput
        cases hinput
      · have hascending := (List.pairwise_append.mp hordered.ascending).2.1
        rw [hqueue, List.pairwise_cons] at hascending
        refine ⟨entry, ?_, hitem, hascending.1 entry hentry⟩
        rwa [hrest]
  · exact Or.inl htold

theorem pump_keeps_order [DecidableEq α] (turns : List (Turn σ α))
    (hlegal : EveryStep Pump.step Legal ({} : Pump σ α) turns) :
    let pump := run Pump.step ({} : Pump σ α) turns
    -- A drain runs while there is something to hand over, and no second one.
    (pump.connected = true → pump.queue ≠ [] → ∃ drain, pump.drains = [drain]) ∧
    pump.drains.length ≤ 1 ∧
    -- What was handed over was each queued once, in that order.
    (pump.handed.map fun handing => handing.entry.serial).Pairwise (· < ·) ∧
    (∀ handing ∈ pump.handed, pump.issued[handing.entry.serial]? = some handing.entry.item) ∧
    (∀ turn, (pump.step turn).handed = pump.handed ∨ ∃ sender entry rest,
      pump.connected = true ∧ pump.sendIfAuthorized = some sender ∧ pump.queue = entry :: rest ∧
      (pump.step turn).handed = pump.handed ++ [⟨sender, entry⟩]) ∧
    -- Past a disconnect, only inputs queued past it.
    (∀ later, let closed := pump.step .disconnect
      ∀ handing ∈ (run Pump.step closed later).handed.drop closed.handed.length,
        isInput handing.entry.item = true → closed.issued.length ≤ handing.entry.serial) ∧
    -- One size of a stream, its latest.
    (pump.connected = true → ∀ streamID,
      (pump.queue.filter fun entry => isResizeOf streamID entry.item).length ≤ 1 ∧
      ∀ entry ∈ pump.queue, ∀ size, entry.item = resizeItem streamID size →
        pump.latestSize streamID = some size) ∧
    -- Past an attach of a new authority, while it is installed.
    ∀ sender authority order later, Legal pump (.attach sender authority order) →
      pump.sameAuthority authority = false →
      let attached := pump.step (.attach sender authority order)
      EveryStep Pump.step (fun s turn => Legal s turn ∧ Keeps s turn) attached later →
      let told := run Pump.step attached later
      ∀ streamID size, told.latestSize streamID = some size →
        (Queued told streamID size ∨ Handed attached.handed.length told streamID size) ∧
        ∀ turn handing, (told.step turn).handed = told.handed ++ [handing] →
          isInput handing.entry.item = true →
          Handed attached.handed.length told streamID size ∨ ∃ entry ∈ (told.step turn).queue,
            entry.item = resizeItem streamID size ∧ handing.entry.serial < entry.serial := by
  have hsound := Sound.new.run hlegal
  revert hsound
  generalize run Pump.step ({} : Pump σ α) turns = pump
  intro hsound
  have hascending := (List.pairwise_append.mp hsound.ordered.ascending).1
  refine ⟨?_, ?_, ?_, ?_, ?_, ?_, ?_, ?_⟩
  · intro hconnected hqueue
    have hcount := hsound.working.drains
    rw [if_pos (hsound.working.active hconnected hqueue)] at hcount
    exact List.length_eq_one_iff.mp hcount
  · rw [hsound.working.drains]
    split_ifs
    · exact Nat.le_refl 1
    · exact Nat.zero_le 1
  · rw [sent, List.pairwise_map] at hascending
    exact List.pairwise_map.mpr hascending
  · intro handing hmem
    exact hsound.ordered.issued handing.entry
      (List.mem_append_left _ (List.mem_map_of_mem hmem))
  · intro turn
    rcases step_handed pump turn with
      hsame | ⟨sender, entry, rest, hconnected, hsender, hqueue, -, hhanded⟩
    · exact Or.inl hsame
    · exact Or.inr ⟨sender, entry, rest, hconnected, hsender, hqueue, hhanded⟩
  · intro later closed
    have hevery : EveryStep Pump.step (fun _ _ => True) closed later :=
      everyStep_of_forall (fun _ _ => trivial) closed later
    exact (hevery.invariant (P := Severed closed.issued.length closed.handed.length)
      (fun _ turn hsevered _ => hsevered.step turn) (Severed.disconnect pump)).handed
  · intro hconnected streamID
    exact ⟨hsound.telling.sized.single streamID, hsound.telling.current hconnected streamID⟩
  · intro sender authority order later hlegal hnew attached hkeeps told streamID size hsize
    obtain ⟨htold, hend⟩ := (Told.attach hsound.telling hlegal hnew).run (hsound.step hlegal) hkeeps
    exact ⟨htold.told streamID size hsize, fun turn handing hhanded hinput =>
      htold.before_input hend.ordered hhanded hinput hsize⟩

/-- A size set while disconnected is handed over after the attach, to its sender. -/
theorem retained_size_is_handed :
    let size : TerminalSize := ⟨80, 24, 640, 480⟩
    let pump := run Pump.step ({} : Pump Nat Nat)
      [.enqueueResize 7 size, .attach 3 (some 1) [7], .startDrain 0]
    (pump.handed.map fun handing => (handing.sender, handing.entry.item)) =
      [(3, resizeItem 7 size)] ∧ pump.drains.length ≤ 1 := by
  intro size pump
  have hlegal : EveryStep Pump.step Legal ({} : Pump Nat Nat)
      [.enqueueResize 7 size, .attach 3 (some 1) [7], .startDrain 0] := by
    refine ⟨trivial, ⟨List.nodup_singleton 7, fun streamID => ?_⟩, trivial, trivial⟩
    show _ ↔ (Function.update (fun _ => none) 7 (some size) streamID).isSome = true
    by_cases hsame : streamID = 7
    · subst hsame
      simp
    · simp [hsame]
  exact ⟨rfl, (pump_keeps_order _ hlegal).2.1⟩

end Srui.Client.TerminalCommandOrder

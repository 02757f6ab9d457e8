import Srui.Client.OutboxWindows

/-!
The chain of queued writes and the record of what was handed to the transport: the
invariant that ties gates, chain membership and roll-back together.
-/

namespace Srui.Client.WriteChains

open Std Basic.FiniteMaps Client.EventWindows Client.WindowIntegrity Client.EventOutboxes
open Client.OutboxWindows

def WriteBody.ownEvent : WriteBody → Option Event
  | .retained write => some write.event
  | .prepared write _ => some write.event
  | .replay _ => none

def Owns (tasks : List WriteTask) (i : Nat) (event : Event) : Prop :=
  ∃ t, tasks[i]? = some t ∧ WriteBody.ownEvent t.body = some event

def Handed (sent : List Transmission) (id : EventId) : Prop := ∃ t ∈ sent, t.event.eventId = id

def firstTransmissions : List Transmission → List Transmission
  | [] => []
  | t :: rest =>
    t :: (firstTransmissions rest).filter fun u => decide (u.event.eventId ≠ t.event.eventId)

theorem mem_of_mem_firstTransmissions {sent : List Transmission} {t : Transmission}
    (h : t ∈ firstTransmissions sent) : t ∈ sent := by
  induction sent with
  | nil => cases h
  | cons u rest ih =>
    rcases List.mem_cons.mp h with rfl | hmem
    · exact List.mem_cons_self
    · exact List.mem_cons_of_mem u (ih (List.mem_of_mem_filter hmem))

theorem firstTransmissions_append (sent : List Transmission) (t : Transmission) :
    (Handed sent t.event.eventId →
        firstTransmissions (sent ++ [t]) = firstTransmissions sent) ∧
      (¬Handed sent t.event.eventId →
        firstTransmissions (sent ++ [t]) = firstTransmissions sent ++ [t]) := by
  induction sent with
  | nil =>
    constructor
    · rintro ⟨u, hmem, -⟩
      cases hmem
    · intro _
      rfl
  | cons u rest ih =>
    obtain ⟨ihHanded, ihFresh⟩ := ih
    rcases Classical.em (Handed rest t.event.eventId) with hrest | hrest
    · constructor
      · intro _
        rw [List.cons_append, firstTransmissions, firstTransmissions, ihHanded hrest]
      · rintro hfresh
        obtain ⟨w, hmem, hid⟩ := hrest
        exact absurd ⟨w, List.mem_cons_of_mem u hmem, hid⟩ hfresh
    · rw [List.cons_append, firstTransmissions, firstTransmissions, ihFresh hrest,
        List.filter_append]
      rcases Classical.em (u.event.eventId = t.event.eventId) with heq | hne
      · constructor
        · intro _
          simp [heq]
        · intro hfresh
          exact absurd ⟨u, List.mem_cons_self, heq⟩ hfresh
      · constructor
        · rintro ⟨w, hmem, hid⟩
          rcases List.mem_cons.mp hmem with rfl | htail
          · exact absurd hid hne
          · exact absurd ⟨w, htail, hid⟩ hrest
        · intro _
          simp [Ne.symm hne]

/-! ### The queue -/

structure Queued (tasks : List WriteTask) (sendTail : Option Nat) (chain : Nat) : Prop where
  chain_le : ∀ (i : Nat) (t : WriteTask), tasks[i]? = some t → t.chain ≤ chain
  tail_chain : ∀ i : Nat, sendTail = some i → ∃ t : WriteTask, tasks[i]? = some t ∧ t.chain = chain
  tail_last : ∀ (i : Nat) (t : WriteTask), tasks[i]? = some t → t.chain = chain →
    ∃ tail, sendTail = some tail ∧ i ≤ tail
  linked : ∀ (i j : Nat) (t u : WriteTask), i < j → tasks[i]? = some t → tasks[j]? = some u →
    t.chain = u.chain → ∃ (p : Nat) (q : WriteTask),
      u.predecessor = some p ∧ i ≤ p ∧ p < j ∧ tasks[p]? = some q ∧ q.chain = u.chain
  done : ∀ (i j : Nat) (t u : WriteTask), i < j → tasks[i]? = some t → tasks[j]? = some u →
    t.chain = u.chain → u.finished = true ∨ u.sending = true → t.finished = true

variable {i n : Nat} {α : Type}

variable {l : List α}

theorem getElem?_concat_cases {a t : α} (h : (l ++ [a])[i]? = some t) :
    (i < l.length ∧ l[i]? = some t) ∨ (i = l.length ∧ t = a) := by
  rcases Nat.lt_trichotomy i l.length with hlt | heq | hgt
  · rw [List.getElem?_append_left hlt] at h
    exact Or.inl ⟨hlt, h⟩
  · subst heq
    rw [List.getElem?_append_right (Nat.le_refl _), Nat.sub_self] at h
    exact Or.inr ⟨rfl, (Option.some.inj h).symm⟩
  · rw [List.getElem?_eq_none (by simp; omega)] at h
    cases h

theorem getElem?_concat_of_some {a t : α} (h : l[i]? = some t) : (l ++ [a])[i]? = some t := by
  rw [List.getElem?_append_left (List.getElem?_eq_some_iff.mp h).1]
  exact h

theorem getElem?_concat_last (l : List α) (a : α) :
    (l ++ [a])[l.length]? = some a := by
  rw [List.getElem?_append_right (Nat.le_refl _), Nat.sub_self]
  rfl

theorem queued_empty : Queued [] none 0 := by
  constructor <;> simp

variable {tasks : List WriteTask} {sendTail : Option Nat} {chain : Nat}

theorem Queued.push (h : Queued tasks sendTail chain) (body : WriteBody) :
    Queued (tasks ++ [{ body := body, predecessor := sendTail, chain := chain }])
      (some tasks.length) chain := by
  refine ⟨?_, ?_, ?_, ?_, ?_⟩
  · intro i t ht
    rcases getElem?_concat_cases ht with ⟨-, hold⟩ | ⟨-, rfl⟩
    · exact h.chain_le i t hold
    · exact Nat.le_refl _
  · rintro i hi
    cases hi
    exact ⟨_, getElem?_concat_last _ _, rfl⟩
  · intro i t ht _
    refine ⟨_, rfl, ?_⟩
    rcases getElem?_concat_cases ht with ⟨hlt, -⟩ | ⟨rfl, -⟩
    · exact Nat.le_of_lt hlt
    · exact Nat.le_refl _
  · intro i j t u hij ht hu hchain
    rcases getElem?_concat_cases hu with ⟨hj, hold⟩ | ⟨rfl, rfl⟩
    · rcases getElem?_concat_cases ht with ⟨-, hold'⟩ | ⟨rfl, -⟩
      · obtain ⟨p, q, hp, hip, hpj, hq, hqchain⟩ := h.linked i j t u hij hold' hold hchain
        exact ⟨p, q, hp, hip, hpj, getElem?_concat_of_some hq, hqchain⟩
      · omega
    · rcases getElem?_concat_cases ht with ⟨-, hold'⟩ | ⟨rfl, -⟩
      · obtain ⟨tail, htail, hle⟩ := h.tail_last i t hold' hchain
        obtain ⟨q, hq, hqchain⟩ := h.tail_chain tail htail
        exact ⟨tail, q, htail, hle, (List.getElem?_eq_some_iff.mp hq).1,
          getElem?_concat_of_some hq, hqchain⟩
      · omega
  · intro i j t u hij ht hu hchain hstarted
    rcases getElem?_concat_cases hu with ⟨hj, hold⟩ | ⟨rfl, rfl⟩
    · rcases getElem?_concat_cases ht with ⟨-, hold'⟩ | ⟨rfl, -⟩
      · exact h.done i j t u hij hold' hold hchain hstarted
      · omega
    · rcases hstarted with hfinished | hsending
      · cases hfinished
      · cases hsending

theorem Queued.cut (h : Queued tasks sendTail chain) : Queued tasks none (chain + 1) := by
  refine ⟨?_, ?_, ?_, h.linked, h.done⟩
  · intro i t ht
    exact Nat.le_succ_of_le (h.chain_le i t ht)
  · intro i hi
    cases hi
  · intro i t ht heq
    have hle := h.chain_le i t ht
    omega

variable {t : WriteTask}

theorem Queued.before_runnable (h : Queued tasks sendTail chain) {j : Nat} {u : WriteTask}
    (hij : i < j) (ht : tasks[i]? = some t) (hu : tasks[j]? = some u)
    (hchain : t.chain = u.chain)
    (hready : ∀ (p : Nat) (q : WriteTask),
      u.predecessor = some p → tasks[p]? = some q → q.finished = true) :
    t.finished = true := by
  obtain ⟨p, q, hp, hip, hpj, hq, hqchain⟩ := h.linked i j t u hij ht hu hchain
  have hqfinished := hready p q hp hq
  rcases Nat.lt_or_eq_of_le hip with hlt | heq
  · exact h.done i p t q hlt ht hq (hchain.trans hqchain.symm) (Or.inl hqfinished)
  · subst heq
    rw [ht] at hq
    rw [Option.some.inj hq]
    exact hqfinished

theorem getElem?_modify_cases {f : α → α} {t : α} (h : (l.modify n f)[i]? = some t) :
    (i = n ∧ ∃ old, l[i]? = some old ∧ t = f old) ∨ (i ≠ n ∧ l[i]? = some t) := by
  rw [List.getElem?_modify] at h
  rcases Classical.em (n = i) with heq | hne
  · subst heq
    simp only [if_true] at h
    obtain ⟨old, hold, rfl⟩ := Option.map_eq_some_iff.mp h
    exact Or.inl ⟨rfl, old, hold, rfl⟩
  · simp only [if_neg hne] at h
    exact Or.inr ⟨Ne.symm hne, by simpa using h⟩

theorem getElem?_modify_of_some {f : α → α} {t : α} (h : l[i]? = some t) :
    (l.modify n f)[i]? = some (if i = n then f t else t) := by
  rw [List.getElem?_modify, h]
  rcases Classical.em (n = i) with heq | hne
  · simp [heq]
  · simp [hne, Ne.symm hne]

variable {f : WriteTask → WriteTask}

theorem Queued.modify (h : Queued tasks sendTail chain)
    (hchain : ∀ t, (f t).chain = t.chain) (hpred : ∀ t, (f t).predecessor = t.predecessor)
    (hfinished : ∀ t, t.finished = true → (f t).finished = true)
    (hready : ∀ t, tasks[n]? = some t → (f t).finished = true ∨ (f t).sending = true →
      ∀ (i : Nat) (u : WriteTask),
        i < n → tasks[i]? = some u → u.chain = t.chain → u.finished = true) :
    Queued (tasks.modify n f) sendTail chain := by
  have hback : ∀ {i : Nat} {t : WriteTask}, (tasks.modify n f)[i]? = some t →
      ∃ old, tasks[i]? = some old ∧ t.chain = old.chain ∧ t.predecessor = old.predecessor ∧
        (old.finished = true → t.finished = true) ∧
        (t = old ∨ (i = n ∧ t = f old)) := by
    intro i t ht
    rcases getElem?_modify_cases ht with ⟨rfl, old, hold, rfl⟩ | ⟨-, hold⟩
    · exact ⟨old, hold, hchain old, hpred old, hfinished old, Or.inr ⟨rfl, rfl⟩⟩
    · exact ⟨t, hold, rfl, rfl, id, Or.inl rfl⟩
  refine ⟨?_, ?_, ?_, ?_, ?_⟩
  · intro i t ht
    obtain ⟨old, hold, hsame, -⟩ := hback ht
    exact hsame ▸ h.chain_le i old hold
  · intro i hi
    obtain ⟨t, ht, htchain⟩ := h.tail_chain i hi
    refine ⟨_, getElem?_modify_of_some ht, ?_⟩
    split
    · rw [hchain, htchain]
    · exact htchain
  · intro i t ht hsame'
    obtain ⟨old, hold, hsame, -⟩ := hback ht
    exact h.tail_last i old hold (hsame ▸ hsame')
  · intro i j t u hij ht hu hsame
    obtain ⟨oldt, holdt, htchain, -⟩ := hback ht
    obtain ⟨oldu, holdu, huchain, hupred, -⟩ := hback hu
    obtain ⟨p, q, hp, hip, hpj, hq, hqchain⟩ := h.linked i j oldt oldu hij holdt holdu
      (by rw [← htchain, ← huchain, hsame])
    refine ⟨p, _, hupred.trans hp, hip, hpj, getElem?_modify_of_some hq, ?_⟩
    split
    · rw [hchain, hqchain, huchain]
    · rw [hqchain, huchain]
  · intro i j t u hij ht hu hsame hstarted
    obtain ⟨oldt, holdt, htchain, -, hkeeps, -⟩ := hback ht
    obtain ⟨oldu, holdu, huchain, -, -, hcases⟩ := hback hu
    have holdSame : oldt.chain = oldu.chain := by rw [← htchain, ← huchain, hsame]
    apply hkeeps
    rcases hcases with rfl | ⟨rfl, rfl⟩
    · exact h.done i j oldt u hij holdt holdu holdSame hstarted
    · exact hready oldu holdu hstarted i oldt hij holdt holdSame

/-! ### The invariant -/

/-- A later incarnation: of a later binding, or further on in the same one. -/
def Precedes (a b : SessionIncarnation) : Prop :=
  a.binding < b.binding ∨ (a.binding = b.binding ∧ a.sequence < b.sequence)

theorem Precedes.irrefl (a : SessionIncarnation) : ¬Precedes a a := by
  rintro (hlt | ⟨-, hlt⟩)
  · exact Nat.lt_irrefl _ hlt
  · exact Nat.lt_irrefl _ hlt

theorem Precedes.trans {a b c : SessionIncarnation} (hab : Precedes a b) (hbc : Precedes b c) :
    Precedes a c := by
  rcases hab with hab | ⟨hab, hseq⟩
  · rcases hbc with hbc | ⟨hbc, -⟩
    · exact Or.inl (Nat.lt_trans hab hbc)
    · exact Or.inl (hbc ▸ hab)
  · rcases hbc with hbc | ⟨hbc, hseq'⟩
    · exact Or.inl (hab ▸ hbc)
    · exact Or.inr ⟨hab.trans hbc, Nat.lt_trans hseq hseq'⟩

/-- Incarnations only move on, so a replay that has lost its own never gets it back. -/
structure Bound (v : WriteView) : Prop where
  active : ∀ current, v.incarnation = some current →
    v.binding = some current.binding ∧ current.binding ≤ v.lastIssuedEpoch
  replays : ∀ (i : Nat) t write, v.tasks[i]? = some t → t.body = .replay write →
    write.binding = write.sessionIncarnation.binding ∧
      ∃ current, v.incarnation = some current ∧
        (write.sessionIncarnation = current ∨ Precedes write.sessionIncarnation current)

/-- Every retained event below one that a replay has still to send was handed over, or
the replay has still to send it too. -/
def Catching (v : WriteView) (remaining : List Event) : Prop :=
  ∀ e ∈ remaining, v.window.pendingEvents[e.eventId]? = some e →
    ∀ (id : EventId) u, v.window.pendingEvents[id]? = some u → u.eventSeq < e.eventSeq →
      Handed v.sent u.eventId ∨ u ∈ remaining

/-- `ordered` says whether writes are also known to keep to the sequence. -/
structure Traced (ordered : Prop) (v : WriteView) : Prop where
  windowed : Windowed v.maxPendingEvents v.window
  queued : Queued v.tasks v.sendTail v.chain
  bound : Bound v
  -- Every event has the one write it was allocated with, and these stand in sequence.
  own_unique : ∀ i j e f, Owns v.tasks i e → Owns v.tasks j f → e.eventId = f.eventId → i = j
  own_pending : ∀ (id : EventId) e, v.window.pendingEvents[id]? = some e → ∃ i, Owns v.tasks i e
  own_sent : ∀ t ∈ v.sent, ∃ i, Owns v.tasks i t.event
  own_ordered : ∀ i j e f, Owns v.tasks i e → Owns v.tasks j f →
    v.window.pendingEvents[e.eventId]? = some e → v.window.pendingEvents[f.eventId]? = some f →
    e.eventSeq < f.eventSeq → i < j
  -- An edit that may still be rolled back waits at a gate that never opened.
  slots_single : ∀ (a b : Token) s s', v.slots[a]? = some s → v.slots[b]? = some s' → a = b
  slots_closed : ∀ (a : Token) slot, v.slots[a]? = some slot →
    ∃ t write decision, v.tasks[slot.task]? = some t ∧ t.body = .prepared write decision ∧
      decision ≠ some true ∧ write.event = slot.event
  suspended_closed : ∀ (a : Token) e, v.suspended[a]? = some e →
    ∃ (i : Nat) (t : WriteTask) (write : RetainedWrite), v.tasks[i]? = some t ∧
      t.body = .prepared write (some false) ∧ write.event = e
  slots_unsent : ∀ (a : Token) slot, v.slots[a]? = some slot → ¬Handed v.sent slot.event.eventId
  suspended_unsent : ∀ (a : Token) e, v.suspended[a]? = some e → ¬Handed v.sent e.eventId
  -- A sequence that was handed over stays with its event.
  sent_le : ∀ t ∈ v.sent, t.event.eventSeq ≤ v.window.currentEventSeq
  sent_same : ∀ t ∈ v.sent, ∀ (id : EventId) u, v.window.pendingEvents[id]? = some u →
    u.eventSeq = t.event.eventSeq → u.eventId = t.event.eventId
  -- What was handed over lies below what is retained and was not.
  behind : ordered → ∀ t ∈ v.sent, ∀ (id : EventId) u, v.window.pendingEvents[id]? = some u →
    ¬Handed v.sent u.eventId → t.event.eventSeq < u.eventSeq
  firsts : ordered →
    (firstTransmissions v.sent).Pairwise fun t u => t.event.eventSeq < u.event.eventSeq
  replay_own : ∀ (i : Nat) t write, v.tasks[i]? = some t → t.body = .replay write →
    ∀ e ∈ write.remaining, ∃ j, Owns v.tasks j e
  replay_sorted : ∀ (i : Nat) t write, v.tasks[i]? = some t → t.body = .replay write →
    write.remaining.Pairwise fun e f => e.eventSeq < f.eventSeq
  replay_catching : ordered → ∀ (i : Nat) t write, v.tasks[i]? = some t →
    t.body = .replay write → v.incarnation = some write.sessionIncarnation →
      Catching v write.remaining

variable {ordered : Prop} {v : WriteView}

variable {e event : Event}

theorem Traced.own_event (h : Traced ordered v) {j : Nat} {f : Event} (he : Owns v.tasks i e)
    (hf : Owns v.tasks j f) (hid : e.eventId = f.eventId) : e = f := by
  have hij := h.own_unique i j e f he hf hid
  obtain ⟨t, ht, hte⟩ := he
  obtain ⟨u, hu, huf⟩ := hf
  rw [hij, hu] at ht
  rw [← Option.some.inj ht, huf] at hte
  exact (Option.some.inj hte).symm

/-! ### Changes of the window -/

theorem Traced.narrow (h : Traced ordered v) {w : SequenceWindow}
    (hw : Windowed v.maxPendingEvents w)
    (hsub : ∀ (id : EventId) e, w.pendingEvents[id]? = some e →
      v.window.pendingEvents[id]? = some e)
    (hsent : ∀ t ∈ v.sent, t.event.eventSeq ≤ w.currentEventSeq) :
    Traced ordered { v with window := w } where
  windowed := hw
  queued := h.queued
  bound := ⟨h.bound.active, h.bound.replays⟩
  own_unique := h.own_unique
  own_pending := fun id e he => h.own_pending id e (hsub id e he)
  own_sent := h.own_sent
  own_ordered := fun i j e f hi hj he hf =>
    h.own_ordered i j e f hi hj (hsub _ e he) (hsub _ f hf)
  slots_single := h.slots_single
  slots_closed := h.slots_closed
  suspended_closed := h.suspended_closed
  slots_unsent := h.slots_unsent
  suspended_unsent := h.suspended_unsent
  sent_le := hsent
  sent_same := fun t ht id u hu => h.sent_same t ht id u (hsub id u hu)
  behind := fun hordered t ht id u hu => h.behind hordered t ht id u (hsub id u hu)
  firsts := h.firsts
  replay_own := h.replay_own
  replay_sorted := h.replay_sorted
  replay_catching := by
    intro hordered i t write ht hbody hactive e he hpending id u hu hlt
    exact h.replay_catching hordered i t write ht hbody hactive e he (hsub _ e hpending) id u
      (hsub id u hu) hlt

theorem Traced.rollBack (h : Traced ordered v)
    (hunsent : ¬Handed v.sent event.eventId) :
    Traced ordered { v with window := (rollBack v.window event).1 } := by
  refine h.narrow (h.windowed.rollBack event) ?_ ?_
  · intro id e he
    rw [EventWindows.rollBack] at he
    split at he
    · exact (forget_lookup he).2
    · exact he
  · intro t ht
    rw [EventWindows.rollBack]
    split
    · rename_i hguard
      show t.event.eventSeq ≤ v.window.currentEventSeq - 1
      have hle := h.sent_le t ht
      have hne : event.eventSeq ≠ t.event.eventSeq := by
        intro heq
        have hid := h.sent_same t ht event.eventId event hguard.2.1 heq
        exact hunsent ⟨t, ht, hid.symm⟩
      have hcurrent := hguard.2.2
      omega
    · exact h.sent_le t ht

theorem Traced.restart (h : Traced ordered v) (frontier : Nat) :
    Traced ordered { v with window := SequenceWindow.startingAt frontier, sent := [] } where
  windowed := windowed_startingAt frontier
  queued := h.queued
  bound := ⟨h.bound.active, h.bound.replays⟩
  own_unique := h.own_unique
  own_pending := by simp [SequenceWindow.startingAt]
  own_sent := by simp
  own_ordered := by simp [SequenceWindow.startingAt]
  slots_single := h.slots_single
  slots_closed := h.slots_closed
  suspended_closed := h.suspended_closed
  slots_unsent := by simp [Handed]
  suspended_unsent := by simp [Handed]
  sent_le := by simp
  sent_same := by simp
  behind := by simp
  firsts := fun _ => List.Pairwise.nil
  replay_own := h.replay_own
  replay_sorted := h.replay_sorted
  replay_catching := by
    intro _ i t write _ _ _ e _ hpending
    simp [SequenceWindow.startingAt] at hpending

/-! ### Changes of the queue -/

theorem owns_concat {tasks : List WriteTask} :
    Owns (tasks ++ [t]) i e ↔
      Owns tasks i e ∨ (i = tasks.length ∧ WriteBody.ownEvent t.body = some e) := by
  constructor
  · rintro ⟨u, hu, hevent⟩
    rcases getElem?_concat_cases hu with ⟨-, hold⟩ | ⟨hi, rfl⟩
    · exact Or.inl ⟨u, hold, hevent⟩
    · exact Or.inr ⟨hi, hevent⟩
  · rintro (⟨u, hu, hevent⟩ | ⟨rfl, hevent⟩)
    · exact ⟨u, getElem?_concat_of_some hu, hevent⟩
    · exact ⟨t, getElem?_concat_last _ _, hevent⟩

theorem owns_modify {tasks : List WriteTask}
    (hevent : ∀ t, tasks[n]? = some t →
      WriteBody.ownEvent (f t).body = WriteBody.ownEvent t.body) :
    Owns (tasks.modify n f) i e ↔ Owns tasks i e := by
  constructor
  · rintro ⟨t, ht, hte⟩
    rcases getElem?_modify_cases ht with ⟨rfl, old, hold, rfl⟩ | ⟨-, hold⟩
    · exact ⟨old, hold, (hevent old hold) ▸ hte⟩
    · exact ⟨t, hold, hte⟩
  · rintro ⟨t, ht, hte⟩
    refine ⟨_, getElem?_modify_of_some ht, ?_⟩
    split
    · rename_i hin
      rw [hevent t (hin ▸ ht), hte]
    · exact hte

section

variable (h : Traced ordered v)

include h

theorem Traced.allocate {w : SequenceWindow} {body : WriteBody} (hw : Windowed v.maxPendingEvents w)
    (hseq : event.eventSeq = v.window.currentEventSeq + 1)
    (hcurrent : w.currentEventSeq = v.window.currentEventSeq + 1)
    (hpending : w.pendingEvents = v.window.pendingEvents.insert event.eventId event)
    (hbody : WriteBody.ownEvent body = some event)
    (hfresh : ∀ i e, Owns v.tasks i e → e.eventId ≠ event.eventId) :
    Traced ordered (WriteView.enqueue { v with window := w } body) := by
  have hlookup : ∀ (id : EventId) e, w.pendingEvents[id]? = some e →
      e = event ∨ v.window.pendingEvents[id]? = some e := by
    intro id e he
    rw [hpending, getElem?_put] at he
    split at he
    · exact Or.inl (Option.some.inj he).symm
    · exact Or.inr he
  have hold : ∀ e : Event, e.eventId ≠ event.eventId →
      w.pendingEvents[e.eventId]? = some e → v.window.pendingEvents[e.eventId]? = some e := by
    intro e hne he
    rw [hpending, getElem?_put, if_neg (Ne.symm hne)] at he
    exact he
  have hle : ∀ (id : EventId) e, v.window.pendingEvents[id]? = some e →
      e.eventSeq ≤ v.window.currentEventSeq := fun id e he => (h.windowed.pending_mem id e he).2.1
  have hcases : ∀ i e, Owns (WriteView.enqueue { v with window := w } body).tasks i e →
      Owns v.tasks i e ∨ (i = v.tasks.length ∧ e = event) := by
    intro i e howns
    rcases owns_concat.mp howns with hprior | ⟨hi, hnew⟩
    · exact Or.inl hprior
    · exact Or.inr ⟨hi, Option.some.inj (hnew.symm.trans hbody)⟩
  have hreplay : ∀ (i : Nat) t write,
      (WriteView.enqueue { v with window := w } body).tasks[i]? = some t →
      t.body = .replay write → v.tasks[i]? = some t := by
    intro i t write ht hreplay
    rcases getElem?_concat_cases ht with ⟨-, hold⟩ | ⟨-, rfl⟩
    · exact hold
    · simp only at hreplay
      rw [hreplay] at hbody
      cases hbody
  refine ⟨hw, h.queued.push body, ⟨h.bound.active, ?_⟩, ?_, ?_, ?_, ?_, h.slots_single, ?_, ?_,
    h.slots_unsent, h.suspended_unsent, ?_, ?_, ?_, h.firsts, ?_, ?_, ?_⟩
  · intro i t write ht hr
    exact h.bound.replays i t write (hreplay i t write ht hr) hr
  · intro i j e f he hf hid
    rcases hcases i e he with hei | ⟨hi, hee⟩
    · rcases hcases j f hf with hfj | ⟨-, hfe⟩
      · exact h.own_unique i j e f hei hfj hid
      · exact absurd (hid.trans (congrArg _ hfe)) (hfresh i e hei)
    · rcases hcases j f hf with hfj | ⟨hj, -⟩
      · exact absurd (hid.symm.trans (congrArg _ hee)) (hfresh j f hfj)
      · exact hi.trans hj.symm
  · intro id e he
    rcases hlookup id e he with rfl | hpre
    · exact ⟨v.tasks.length, owns_concat.mpr (Or.inr ⟨rfl, hbody⟩)⟩
    · obtain ⟨i, hi⟩ := h.own_pending id e hpre
      exact ⟨i, owns_concat.mpr (Or.inl hi)⟩
  · intro t ht
    obtain ⟨i, hi⟩ := h.own_sent t ht
    exact ⟨i, owns_concat.mpr (Or.inl hi)⟩
  · intro i j e f he hf hpe hpf hlt
    rcases hcases j f hf with hfj | ⟨hj, hfe⟩
    · have hpf' := hold f (hfresh j f hfj) hpf
      rcases hcases i e he with hei | ⟨-, hee⟩
      · exact h.own_ordered i j e f hei hfj (hold e (hfresh i e hei) hpe) hpf' hlt
      · rw [hee, hseq] at hlt
        have hfle := hle _ f hpf'
        omega
    · rcases hcases i e he with ⟨t, ht, -⟩ | ⟨-, hee⟩
      · rw [hj]
        exact (List.getElem?_eq_some_iff.mp ht).1
      · rw [hfe, hee] at hlt
        exact absurd hlt (Nat.lt_irrefl _)
  · intro a slot hslot
    obtain ⟨t, write, decision, ht, hrest⟩ := h.slots_closed a slot hslot
    exact ⟨t, write, decision, getElem?_concat_of_some ht, hrest⟩
  · intro a e he
    obtain ⟨i, t, write, ht, hrest⟩ := h.suspended_closed a e he
    exact ⟨i, t, write, getElem?_concat_of_some ht, hrest⟩
  · intro t ht
    have hsent := h.sent_le t ht
    show t.event.eventSeq ≤ w.currentEventSeq
    omega
  · intro t ht id u hu hsame
    have hsent := h.sent_le t ht
    rcases hlookup id u hu with rfl | hpre
    · omega
    · exact h.sent_same t ht id u hpre hsame
  · intro hordered t ht id u hu hunsent
    rcases hlookup id u hu with rfl | hpre
    · have hsent := h.sent_le t ht
      omega
    · exact h.behind hordered t ht id u hpre hunsent
  · intro i t write ht hr e he
    obtain ⟨j, hj⟩ := h.replay_own i t write (hreplay i t write ht hr) hr e he
    exact ⟨j, owns_concat.mpr (Or.inl hj)⟩
  · intro i t write ht hr
    exact h.replay_sorted i t write (hreplay i t write ht hr) hr
  · intro hordered i t write ht hr hactive e he hpe id u hu hlt
    have ht' := hreplay i t write ht hr
    obtain ⟨j, hj⟩ := h.replay_own i t write ht' hr e he
    have hpe' := hold e (hfresh j e hj) hpe
    rcases hlookup id u hu with rfl | hpre
    · have hele := hle _ e hpe'
      omega
    · exact h.replay_catching hordered i t write ht' hr hactive e he hpe' id u hpre hlt

theorem Traced.enqueueReplay {binding : ConnectionBinding} {incarnation : SessionIncarnation}
    (hbinding : v.binding = some binding) (hincarnation : v.incarnation = some incarnation)
    (owner : ReplayOwner) :
    Traced ordered
      (v.enqueue (.replay ⟨retainedEvents v.window, binding, incarnation, owner⟩)) := by
  have hown : ∀ i e, Owns (v.enqueue (.replay ⟨retainedEvents v.window, binding, incarnation,
      owner⟩)).tasks i e ↔ Owns v.tasks i e := by
    intro i e
    rw [WriteView.enqueue, owns_concat]
    constructor
    · rintro (hold | ⟨-, hnone⟩)
      · exact hold
      · cases hnone
    · exact Or.inl
  have hpending : ∀ e ∈ retainedEvents v.window, v.window.pendingEvents[e.eventId]? = some e :=
    fun e he => (mem_retainedEvents h.windowed.listed).mp he
  refine ⟨h.windowed, h.queued.push _, ⟨h.bound.active, ?_⟩, ?_, ?_, ?_, ?_, h.slots_single, ?_,
    ?_, h.slots_unsent, h.suspended_unsent, h.sent_le, h.sent_same, h.behind, h.firsts, ?_, ?_,
    ?_⟩
  · intro i t write ht hr
    rcases getElem?_concat_cases ht with ⟨-, hold⟩ | ⟨-, rfl⟩
    · exact h.bound.replays i t write hold hr
    · cases hr
      have hsame := (h.bound.active incarnation hincarnation).1
      rw [hbinding] at hsame
      exact ⟨Option.some.inj hsame, incarnation, hincarnation, Or.inl rfl⟩
  · intro i j e f he hf
    exact h.own_unique i j e f ((hown i e).mp he) ((hown j f).mp hf)
  · intro id e he
    obtain ⟨i, hi⟩ := h.own_pending id e he
    exact ⟨i, (hown i e).mpr hi⟩
  · intro t ht
    obtain ⟨i, hi⟩ := h.own_sent t ht
    exact ⟨i, (hown i _).mpr hi⟩
  · intro i j e f he hf
    exact h.own_ordered i j e f ((hown i e).mp he) ((hown j f).mp hf)
  · intro a slot hslot
    obtain ⟨t, write, decision, ht, hrest⟩ := h.slots_closed a slot hslot
    exact ⟨t, write, decision, getElem?_concat_of_some ht, hrest⟩
  · intro a e he
    obtain ⟨i, t, write, ht, hrest⟩ := h.suspended_closed a e he
    exact ⟨i, t, write, getElem?_concat_of_some ht, hrest⟩
  · intro i t write ht hr e he
    rcases getElem?_concat_cases ht with ⟨-, hold⟩ | ⟨-, rfl⟩
    · obtain ⟨j, hj⟩ := h.replay_own i t write hold hr e he
      exact ⟨j, (hown j e).mpr hj⟩
    · cases hr
      obtain ⟨j, hj⟩ := h.own_pending _ e (hpending e he)
      exact ⟨j, (hown j e).mpr hj⟩
  · intro i t write ht hr
    rcases getElem?_concat_cases ht with ⟨-, hold⟩ | ⟨-, rfl⟩
    · exact h.replay_sorted i t write hold hr
    · cases hr
      exact retainedEvents_increasing h.windowed.listed
  · intro hordered i t write ht hr hactive
    rcases getElem?_concat_cases ht with ⟨-, hold⟩ | ⟨-, rfl⟩
    · exact h.replay_catching hordered i t write hold hr hactive
    · cases hr
      intro e _ _ id u hu _
      refine Or.inr ((mem_retainedEvents h.windowed.listed).mpr ?_)
      rw [h.windowed.listed.keyed id u hu]
      exact hu

theorem Traced.change (hevent : ∀ t, v.tasks[n]? = some t →
      WriteBody.ownEvent (f t).body = WriteBody.ownEvent t.body)
    (hclosed : ∀ t write, v.tasks[n]? = some t → t.body = .prepared write (some false) →
      (f t).body = t.body) (hgate : ∀ (a : Token) slot, v.slots[a]? = some slot → slot.task = n →
      ∀ t write decision, v.tasks[n]? = some t → t.body = .prepared write decision →
      decision ≠ some true → ∃ decision', (f t).body = .prepared write decision' ∧
        decision' ≠ some true)
    (hreplay : ∀ t write', v.tasks[n]? = some t → (f t).body = .replay write' →
      ∃ write, t.body = .replay write ∧ write'.binding = write.binding ∧
        write'.sessionIncarnation = write.sessionIncarnation ∧
        write'.remaining.Sublist write.remaining ∧
        (v.incarnation = some write.sessionIncarnation → Catching v write.remaining →
          Catching v write'.remaining)) (hchain : ∀ t, (f t).chain = t.chain)
    (hpred : ∀ t, (f t).predecessor = t.predecessor)
    (hfinished : ∀ t, t.finished = true → (f t).finished = true)
    (hready : ∀ t, v.tasks[n]? = some t → (f t).finished = true ∨ (f t).sending = true →
      ∀ (i : Nat) (u : WriteTask),
        i < n → v.tasks[i]? = some u → u.chain = t.chain → u.finished = true) :
    Traced ordered { v with tasks := v.tasks.modify n f } := by
  have hown : ∀ i e, Owns (v.tasks.modify n f) i e ↔ Owns v.tasks i e :=
    fun i e => owns_modify hevent
  have hback : ∀ {i : Nat} {t : WriteTask} {write' : ReplayWrite},
      (v.tasks.modify n f)[i]? = some t → t.body = .replay write' →
      ∃ old write, v.tasks[i]? = some old ∧ old.body = .replay write ∧
        write'.binding = write.binding ∧
        write'.sessionIncarnation = write.sessionIncarnation ∧
        write'.remaining.Sublist write.remaining ∧
        (v.incarnation = some write.sessionIncarnation → Catching v write.remaining →
          Catching v write'.remaining) := by
    intro i t write' ht hbody
    rcases getElem?_modify_cases ht with ⟨rfl, old, hold, rfl⟩ | ⟨-, hold⟩
    · obtain ⟨write, hwrite, hrest⟩ := hreplay old write' hold hbody
      exact ⟨old, write, hold, hwrite, hrest⟩
    · exact ⟨t, write', hold, hbody, rfl, rfl, List.Sublist.refl _, fun _ hcatching => hcatching⟩
  refine ⟨h.windowed, h.queued.modify hchain hpred hfinished hready, ⟨h.bound.active, ?_⟩, ?_, ?_,
    ?_, ?_, h.slots_single, ?_, ?_, h.slots_unsent, h.suspended_unsent, h.sent_le, h.sent_same,
    h.behind, h.firsts, ?_, ?_, ?_⟩
  · intro i t write' ht hr
    obtain ⟨old, write, hold, hbody, hbinding, hincarnation, -⟩ := hback ht hr
    rw [hbinding, hincarnation]
    exact h.bound.replays i old write hold hbody
  · intro i j e f he hf
    exact h.own_unique i j e f ((hown i e).mp he) ((hown j f).mp hf)
  · intro id e he
    obtain ⟨i, hi⟩ := h.own_pending id e he
    exact ⟨i, (hown i e).mpr hi⟩
  · intro t ht
    obtain ⟨i, hi⟩ := h.own_sent t ht
    exact ⟨i, (hown i _).mpr hi⟩
  · intro i j e f he hf
    exact h.own_ordered i j e f ((hown i e).mp he) ((hown j f).mp hf)
  · intro a slot hslot
    obtain ⟨t, write, decision, ht, hbody, hshut, hslotEvent⟩ := h.slots_closed a slot hslot
    have ht' := getElem?_modify_of_some (n := n) (f := f) ht
    split at ht'
    · rename_i htask
      obtain ⟨decision', hbody', hshut'⟩ := hgate a slot hslot htask t write decision
        (htask ▸ ht) hbody hshut
      exact ⟨f t, write, decision', ht', hbody', hshut', hslotEvent⟩
    · exact ⟨t, write, decision, ht', hbody, hshut, hslotEvent⟩
  · intro a e he
    obtain ⟨i, t, write, ht, hbody, hsuspended⟩ := h.suspended_closed a e he
    have ht' := getElem?_modify_of_some (n := n) (f := f) ht
    split at ht'
    · rename_i htask
      exact ⟨i, f t, write, ht', (hclosed t write (htask ▸ ht) hbody).trans hbody, hsuspended⟩
    · exact ⟨i, t, write, ht', hbody, hsuspended⟩
  · intro i t write' ht hr e he
    obtain ⟨old, write, hold, hbody, -, -, hsub, -⟩ := hback ht hr
    obtain ⟨j, hj⟩ := h.replay_own i old write hold hbody e (hsub.subset he)
    exact ⟨j, (hown j e).mpr hj⟩
  · intro i t write' ht hr
    obtain ⟨old, write, hold, hbody, -, -, hsub, -⟩ := hback ht hr
    exact (h.replay_sorted i old write hold hbody).sublist hsub
  · intro hordered i t write' ht hr hactive
    obtain ⟨old, write, hold, hbody, -, hincarnation, -, hcatching⟩ := hback ht hr
    rw [hincarnation] at hactive
    exact hcatching hactive (h.replay_catching hordered i old write hold hbody hactive)

theorem Traced.modifyTask (hbody : ∀ t, (f t).body = t.body) (hchain : ∀ t, (f t).chain = t.chain)
    (hpred : ∀ t, (f t).predecessor = t.predecessor)
    (hfinished : ∀ t, t.finished = true → (f t).finished = true)
    (hready : ∀ t, v.tasks[n]? = some t → (f t).finished = true ∨ (f t).sending = true →
      ∀ (i : Nat) (u : WriteTask),
        i < n → v.tasks[i]? = some u → u.chain = t.chain → u.finished = true) :
    Traced ordered { v with tasks := v.tasks.modify n f } := by
  refine h.change (fun t _ => by rw [hbody]) (fun t _ _ _ => hbody t) ?_ ?_ hchain hpred hfinished
    hready
  · intro a slot _ _ t write decision _ hprepared hshut
    exact ⟨decision, (hbody t).trans hprepared, hshut⟩
  · intro t write' _ hr
    rw [hbody] at hr
    exact ⟨write', hr, rfl, rfl, List.Sublist.refl _, fun _ hcatching => hcatching⟩

theorem Traced.advanceReplay {write : ReplayWrite} {rest : List Event} (ht : v.tasks[n]? = some t)
    (hwrite : t.body = .replay write) (hremaining : write.remaining = event :: rest)
    (hpast : v.incarnation = some write.sessionIncarnation →
      Handed v.sent event.eventId ∨ v.window.pendingEvents[event.eventId]? ≠ some event) :
    Traced ordered { v with tasks := v.tasks.modify n fun t =>
      { t with body := .replay { write with remaining := rest } } } := by
  have hsame : ∀ u, v.tasks[n]? = some u → u = t := fun u hu => Option.some.inj (hu.symm.trans ht)
  refine h.change ?_ ?_ ?_ ?_ (fun _ => rfl) (fun _ => rfl) (fun _ hfinished => hfinished) ?_
  · intro u hu
    rw [hsame u hu, hwrite]
    rfl
  · intro u prepared hu hbody
    rw [hsame u hu, hwrite] at hbody
    cases hbody
  · intro a slot _ _ u prepared decision hu hbody
    rw [hsame u hu, hwrite] at hbody
    cases hbody
  · intro u write' hu hbody
    cases hbody
    refine ⟨write, hsame u hu ▸ hwrite, rfl, rfl, ?_, ?_⟩
    · rw [hremaining]
      exact List.sublist_cons_self event rest
    · intro hactive hcatching e he hpending id u hu hlt
      rw [hremaining] at hcatching
      rcases hcatching e (List.mem_cons_of_mem event he) hpending id u hu hlt with hhanded | hmem
      · exact Or.inl hhanded
      rcases List.mem_cons.mp hmem with rfl | hrest
      · -- The event passed over is behind the replay only if it was handed over.
        rcases hpast hactive with hhanded | hgone
        · exact Or.inl hhanded
        · rw [h.windowed.listed.keyed id u hu] at hgone
          exact absurd hu hgone
      · exact Or.inr hrest
  · intro u hu hstarted i w hi hw hchain
    rw [hsame u hu] at hstarted hchain
    exact h.queued.done i n w t hi hw ht hchain hstarted

/-! ### Gates and slots -/

theorem Traced.dropSlots {slots : ExtTreeMap Token PreparedTextEditSend}
    (hsub : ∀ (a : Token) slot, slots[a]? = some slot → v.slots[a]? = some slot) :
    Traced ordered { v with slots := slots } :=
  { h with
    bound := ⟨h.bound.active, h.bound.replays⟩
    slots_single := fun a b s s' hs hs' => h.slots_single a b s s' (hsub a s hs) (hsub b s' hs')
    slots_closed := fun a slot hslot => h.slots_closed a slot (hsub a slot hslot)
    slots_unsent := fun a slot hslot => h.slots_unsent a slot (hsub a slot hslot) }

theorem Traced.dropSuspended (suspended : ExtTreeMap Token Event)
    (hsub : ∀ (a : Token) e, suspended[a]? = some e → v.suspended[a]? = some e) :
    Traced ordered { v with suspended := suspended } :=
  { h with
    bound := ⟨h.bound.active, h.bound.replays⟩
    suspended_closed := fun a e he => h.suspended_closed a e (hsub a e he)
    suspended_unsent := fun a e he => h.suspended_unsent a e (hsub a e he) }

end

theorem decide_eq_replay {body : WriteBody} {shouldSend : Bool} {write : ReplayWrite}
    (h : body.decide shouldSend = .replay write) : body = .replay write := by
  rcases body with retained | ⟨prepared, - | decision⟩ | replay
  · cases h
  · cases h
  · cases h
  · exact h

variable (h : Traced ordered v)

include h

theorem Traced.decideGate (shouldSend : Bool) (hfree : shouldSend = true →
      ∀ (a : Token) slot, v.slots[a]? = some slot → slot.task ≠ n) :
    Traced ordered { v with tasks := v.tasks.modify n fun t =>
      { t with body := t.body.decide shouldSend } } := by
  refine h.change ?_ ?_ ?_ ?_ (fun _ => rfl) (fun _ => rfl) (fun _ hfinished => hfinished) ?_
  · intro t _
    rcases t.body with write | ⟨write, - | decision⟩ | write <;> rfl
  · intro t write _ hbody
    show t.body.decide shouldSend = t.body
    rw [hbody]
    rfl
  · intro a slot hslot htask t write decision _ hbody hshut
    show ∃ decision', t.body.decide shouldSend = _ ∧ _
    rw [hbody]
    rcases decision with - | decided
    · refine ⟨some shouldSend, rfl, ?_⟩
      intro hopen
      exact hfree (Option.some.inj hopen) a slot hslot htask
    · exact ⟨some decided, rfl, hshut⟩
  · intro t write' _ hbody
    exact ⟨write', decide_eq_replay hbody, rfl, rfl, List.Sublist.refl _,
      fun _ hcatching => hcatching⟩
  · intro t ht hstarted i u hi hu hchain
    exact h.queued.done i n u t hi hu ht hchain hstarted

theorem Traced.suspend (token : Token)
    (hclosed : ∃ (i : Nat) (t : WriteTask) (write : RetainedWrite), v.tasks[i]? = some t ∧
      t.body = .prepared write (some false) ∧ write.event = event)
    (hunsent : ¬Handed v.sent event.eventId) :
    Traced ordered { v with suspended := v.suspended.insert token event } := by
  have hcases : ∀ (a : Token) e, (v.suspended.insert token event)[a]? = some e →
      e = event ∨ v.suspended[a]? = some e := by
    intro a e he
    rw [getElem?_put] at he
    split at he
    · exact Or.inl (Option.some.inj he).symm
    · exact Or.inr he
  refine { h with
    bound := ⟨h.bound.active, h.bound.replays⟩
    suspended_closed := ?_
    suspended_unsent := ?_ }
  · intro a e he
    rcases hcases a e he with rfl | hold
    · exact hclosed
    · exact h.suspended_closed a e hold
  · intro a e he
    rcases hcases a e he with rfl | hold
    · exact hunsent
    · exact h.suspended_unsent a e hold

theorem Traced.openSlot (token : Token) (slot : PreparedTextEditSend)
    (hempty : ∀ a : Token, v.slots[a]? = none)
    (hclosed : ∃ t write, v.tasks[slot.task]? = some t ∧ t.body = .prepared write none ∧
      write.event = slot.event) (hunsent : ¬Handed v.sent slot.event.eventId) :
    Traced ordered { v with slots := v.slots.insert token slot } := by
  have hcases : ∀ (a : Token) s, (v.slots.insert token slot)[a]? = some s →
      token = a ∧ s = slot := by
    intro a s hs
    rw [getElem?_put] at hs
    split at hs
    · rename_i heq
      exact ⟨heq, (Option.some.inj hs).symm⟩
    · rw [hempty] at hs
      cases hs
  refine { h with
    bound := ⟨h.bound.active, h.bound.replays⟩
    slots_single := ?_
    slots_closed := ?_
    slots_unsent := ?_ }
  · intro a b s s' hs hs'
    exact (hcases a s hs).1.symm.trans (hcases b s' hs').1
  · intro a s hs
    obtain ⟨t, write, ht, hbody, hevent⟩ := hclosed
    rw [(hcases a s hs).2]
    exact ⟨t, write, none, ht, hbody, by simp, hevent⟩
  · intro a s hs
    rw [(hcases a s hs).2]
    exact hunsent

/-! ### Bindings -/

theorem Traced.rebind (incarnation : SessionIncarnation) {epoch : Nat}
    (hbound : incarnation.binding ≤ epoch)
    (hlater : ∀ current, v.incarnation = some current → Precedes current incarnation) :
    Traced ordered { v with
      binding := some incarnation.binding
      incarnation := some incarnation
      lastIssuedEpoch := epoch } := by
  have hreplays : ∀ (i : Nat) t write, v.tasks[i]? = some t → t.body = .replay write →
      Precedes write.sessionIncarnation incarnation := by
    intro i t write ht hbody
    obtain ⟨-, current, hcurrent, hcases⟩ := h.bound.replays i t write ht hbody
    have hnext := hlater current hcurrent
    rcases hcases with heq | hbefore
    · exact heq ▸ hnext
    · exact hbefore.trans hnext
  refine { h with bound := ⟨?_, ?_⟩, replay_catching := ?_ }
  · rintro current hcurrent
    cases hcurrent
    exact ⟨rfl, hbound⟩
  · intro i t write ht hbody
    exact ⟨(h.bound.replays i t write ht hbody).1, incarnation, rfl,
      Or.inr (hreplays i t write ht hbody)⟩
  · intro _ i t write ht hbody hactive
    have hbefore := hreplays i t write ht hbody
    cases hactive
    exact absurd hbefore (Precedes.irrefl _)

/-! ### Transmission -/

theorem Traced.handOver (chain : Nat)
    (hpending : v.window.pendingEvents[event.eventId]? = some event)
    (hnext : ordered → ∀ (id : EventId) u, v.window.pendingEvents[id]? = some u →
      u.eventSeq < event.eventSeq → Handed v.sent u.eventId)
    (hslots : ∀ (a : Token) slot, v.slots[a]? = some slot → slot.event ≠ event)
    (hsuspended : ∀ (a : Token) e, v.suspended[a]? = some e → e ≠ event) :
    Traced ordered { v with sent := v.sent ++ [⟨event, chain⟩] } := by
  obtain ⟨own, hown⟩ := h.own_pending _ event hpending
  have hgrown : ∀ id, Handed (v.sent ++ [⟨event, chain⟩]) id ↔
      Handed v.sent id ∨ event.eventId = id := by
    intro id
    constructor
    · rintro ⟨t, ht, hid⟩
      rcases List.mem_append.mp ht with hold | hnew
      · exact Or.inl ⟨t, hold, hid⟩
      · rw [List.mem_singleton.mp hnew] at hid
        exact Or.inr hid
    · rintro (⟨t, ht, hid⟩ | hid)
      · exact ⟨t, List.mem_append_left _ ht, hid⟩
      · exact ⟨⟨event, chain⟩, List.mem_append_right _ (List.mem_singleton_self _), hid⟩
  refine { h with
    bound := ⟨h.bound.active, h.bound.replays⟩
    own_sent := ?_
    slots_unsent := ?_
    suspended_unsent := ?_
    sent_le := ?_
    sent_same := ?_
    behind := ?_
    firsts := ?_
    replay_catching := ?_ }
  · intro t ht
    rcases List.mem_append.mp ht with hold | hnew
    · exact h.own_sent t hold
    · rw [List.mem_singleton.mp hnew]
      exact ⟨own, hown⟩
  · intro a slot hslot hhanded
    rcases (hgrown _).mp hhanded with hold | hid
    · exact h.slots_unsent a slot hslot hold
    · obtain ⟨t, write, decision, ht, hbody, -, hevent⟩ := h.slots_closed a slot hslot
      have howns : Owns v.tasks slot.task slot.event := ⟨t, ht, by rw [hbody, ← hevent]; rfl⟩
      exact hslots a slot hslot (h.own_event howns hown hid.symm)
  · intro a e he hhanded
    rcases (hgrown _).mp hhanded with hold | hid
    · exact h.suspended_unsent a e he hold
    · obtain ⟨i, t, write, ht, hbody, hevent⟩ := h.suspended_closed a e he
      have howns : Owns v.tasks i e := ⟨t, ht, by rw [hbody, ← hevent]; rfl⟩
      exact hsuspended a e he (h.own_event howns hown hid.symm)
  · intro t ht
    rcases List.mem_append.mp ht with hold | hnew
    · exact h.sent_le t hold
    · rw [List.mem_singleton.mp hnew]
      exact (h.windowed.pending_mem _ event hpending).2.1
  · intro t ht id u hu hsame
    rcases List.mem_append.mp ht with hold | hnew
    · exact h.sent_same t hold id u hu hsame
    · rw [List.mem_singleton.mp hnew] at hsame ⊢
      rw [h.windowed.listed.keyed id u hu]
      exact h.windowed.listed.eq_of_rank hu hpending hsame
  · intro hordered t ht id u hu hunsent
    have hnot : ¬Handed v.sent u.eventId := fun hhanded => hunsent ((hgrown _).mpr (Or.inl hhanded))
    rcases List.mem_append.mp ht with hold | hnew
    · exact h.behind hordered t hold id u hu hnot
    · rw [List.mem_singleton.mp hnew]
      show event.eventSeq < u.eventSeq
      by_contra hle
      rcases Nat.lt_or_eq_of_le (Nat.le_of_not_lt hle) with hlt | heq
      · exact hnot (hnext hordered id u hu hlt)
      · have hid : id = event.eventId := h.windowed.listed.eq_of_rank hu hpending heq
        exact hunsent ((hgrown _).mpr (Or.inr (by rw [h.windowed.listed.keyed id u hu, hid])))
  · intro hordered
    obtain ⟨hagain, hfirst⟩ := firstTransmissions_append v.sent ⟨event, chain⟩
    rcases Classical.em (Handed v.sent event.eventId) with hhanded | hfresh
    · simp only
      rw [hagain hhanded]
      exact h.firsts hordered
    · simp only
      rw [hfirst hfresh]
      refine List.pairwise_append.mpr ⟨h.firsts hordered, List.pairwise_singleton _ _, ?_⟩
      intro t ht u hu
      rw [List.mem_singleton.mp hu]
      exact h.behind hordered t (mem_of_mem_firstTransmissions ht) _ event hpending hfresh
  · intro hordered i t write ht hbody hactive e he hpe id u hu hlt
    rcases h.replay_catching hordered i t write ht hbody hactive e he hpe id u hu hlt with
      hhanded | hmem
    · exact Or.inl ((hgrown _).mpr (Or.inl hhanded))
    · exact Or.inr hmem

theorem Traced.cut :
    Traced ordered { v with sendTail := none, chain := v.chain + 1 } :=
  { h with queued := h.queued.cut, bound := ⟨h.bound.active, h.bound.replays⟩ }

end Srui.Client.WriteChains

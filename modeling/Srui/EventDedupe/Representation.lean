import Srui.Basic.Runs
import Srui.EventDedupe.Deduplicators
import Srui.EventDedupe.WindowInvariant

/-!
The representation invariant of the deduplicator, over runs of all its public
mutators.
-/

namespace Srui.EventDedupe.Representation

open Std Basic.FiniteMaps Basic.Listings Basic.Runs EventDedupe.Deduplicators
open EventDedupe.WindowInvariant EventDedupe.Windows

structure Core (d : EventDeduplicator) : Prop where
  entries_pos : 1 ≤ d.maxEntriesPerClient
  windows_pos : 1 ≤ d.maxClientWindows
  clients : Listing d.clientOrder d.clients
  frontiers : Listing d.frontierOrder d.evictedFrontiers
  clients_le : d.clients.size ≤ d.maxClientWindows
  frontiers_le : d.evictedFrontiers.size ≤ d.maxClientWindows
  windows : ∀ (c : Bytes) (w : ClientDedupeWindow), d.clients[c]? = some w →
    WindowInv d.maxEntriesPerClient w

/-- No client has both a live window and a retained frontier. -/
def Separate (d : EventDeduplicator) : Prop :=
  ∀ (c : Bytes) (w : ClientDedupeWindow), d.clients[c]? = some w → d.evictedFrontiers[c]? = none

variable {d d' : EventDeduplicator}

theorem core_withLimits (maxEntries maxWindows : Nat) :
    Core (EventDeduplicator.withLimits maxEntries maxWindows) where
  entries_pos := Nat.le_max_right _ _
  windows_pos := Nat.le_max_right _ _
  clients := Listing.empty
  frontiers := Listing.empty
  clients_le := by simp [EventDeduplicator.withLimits]
  frontiers_le := by simp [EventDeduplicator.withLimits]
  windows := by simp [EventDeduplicator.withLimits]

/-!
The parts the calls are made of.
-/

theorem touchClient_eq (d : EventDeduplicator) (c : Bytes) :
    ∃ order : List Bytes, order.Perm d.clientOrder ∧
      touchClient d c = { d with clientOrder := order } := by
  unfold touchClient
  split
  · exact ⟨d.clientOrder, List.Perm.refl _, rfl⟩
  · rename_i position hposition
    split
    · exact ⟨d.clientOrder, List.Perm.refl _, rfl⟩
    · refine ⟨_, ?_, rfl⟩
      rw [List.idxOf?_eq_some_iff] at hposition
      obtain ⟨hlt, hget, -⟩ := hposition
      refine List.perm_append_comm.trans ?_
      rw [List.singleton_append, ← hget]
      exact List.getElem_cons_eraseIdx_perm hlt

theorem Core.touch (h : Core d) (c : Bytes) : Core (touchClient d c) := by
  obtain ⟨order, hperm, heq⟩ := touchClient_eq d c
  rw [heq]
  exact { h with clients := h.clients.reorder hperm }

variable {c a : Bytes} {w : ClientDedupeWindow}

theorem Core.putWindow (h : Core d) {w' : ClientDedupeWindow}
    (hc : d.clients[c]? = some w) (hw' : WindowInv d.maxEntriesPerClient w') :
    Core (putWindow d c w') where
  entries_pos := h.entries_pos
  windows_pos := h.windows_pos
  clients := h.clients.put hc w'
  frontiers := h.frontiers
  clients_le := by
    change (d.clients.insert c w').size ≤ d.maxClientWindows
    rw [size_insert_of_present w' hc]
    exact h.clients_le
  frontiers_le := h.frontiers_le
  windows := by
    intro a q ha
    change (d.clients.insert c w')[a]? = some q at ha
    rw [getElem?_put] at ha
    by_cases heq : c = a
    · simp only [heq, if_true, Option.some.injEq] at ha
      exact ha ▸ hw'
    · rw [if_neg heq] at ha
      exact h.windows a q ha

theorem Core.addClient (h : Core d)
    (hc : d.clients[c]? = none) (hroom : d.clients.size < d.maxClientWindows)
    (hw : WindowInv d.maxEntriesPerClient w) : Core (addClient d c w) where
  entries_pos := h.entries_pos
  windows_pos := h.windows_pos
  clients := h.clients.push hc w
  frontiers := h.frontiers
  clients_le := by
    change (d.clients.insert c w).size ≤ d.maxClientWindows
    rw [size_insert_of_fresh w hc]
    exact hroom
  frontiers_le := h.frontiers_le
  windows := by
    intro a q ha
    change (d.clients.insert c w)[a]? = some q at ha
    rw [getElem?_put] at ha
    by_cases heq : c = a
    · simp only [heq, if_true, Option.some.injEq] at ha
      exact ha ▸ hw
    · rw [if_neg heq] at ha
      exact h.windows a q ha

theorem Core.removeClient (h : Core d) (c : Bytes) : Core (removeClient d c) where
  entries_pos := h.entries_pos
  windows_pos := h.windows_pos
  clients := h.clients.drop c
  frontiers := h.frontiers.drop c
  clients_le := Nat.le_trans ExtTreeMap.size_erase_le h.clients_le
  frontiers_le := Nat.le_trans ExtTreeMap.size_erase_le h.frontiers_le
  windows := by
    intro a q ha
    change (d.clients.erase c)[a]? = some q at ha
    rw [getElem?_drop] at ha
    by_cases heq : c = a
    · simp [heq] at ha
    · rw [if_neg heq] at ha
      exact h.windows a q ha

/-!
Retained frontiers. One insertion brings the queue at most one over its bound,
so at most the oldest frontier is dropped.
-/

/-- The frontier a call to `retain_frontier` for a new client pushes out. -/
def droppedFrontier (d : EventDeduplicator) : Option Bytes :=
  if d.frontierOrder.length = d.maxClientWindows then d.frontierOrder.head? else none

theorem trimFrontiers_of_le {limit : Nat} {order : List Bytes} {t : ExtTreeMap Bytes Nat}
    (h : order.length ≤ limit) : trimFrontiers limit order t = (order, t) := by
  cases order with
  | nil => rfl
  | cons oldest rest => rw [trimFrontiers, if_neg (by omega)]

theorem trimFrontiers_of_over {limit : Nat} {oldest : Bytes} {rest : List Bytes}
    {t : ExtTreeMap Bytes Nat} (h : rest.length = limit) :
    trimFrontiers limit (oldest :: rest) t = (rest, t.erase oldest) := by
  rw [trimFrontiers, if_pos (by rw [List.length_cons]; omega), trimFrontiers_of_le (by omega)]

/-- What `retain_frontier` does to the retained frontiers. -/
structure Retained (d : EventDeduplicator) (c : Bytes) (frontier : Nat) (d' : EventDeduplicator) :
    Prop where
  rest : d' = { d with frontierOrder := d'.frontierOrder, evictedFrontiers := d'.evictedFrontiers }
  listing : Listing d'.frontierOrder d'.evictedFrontiers
  size_le : d'.evictedFrontiers.size ≤ d.maxClientWindows
  own : d'.evictedFrontiers[c]? = some frontier
  others : ∀ a : Bytes, a ≠ c → d'.evictedFrontiers[a]? =
    if d.evictedFrontiers[c]? = none ∧ droppedFrontier d = some a then none
    else d.evictedFrontiers[a]?

theorem retainFrontier_zero (d : EventDeduplicator) (c : Bytes) : retainFrontier d c 0 = d := rfl

theorem retainFrontier_retained (h : Core d) (c : Bytes) {frontier : Nat} (hpos : frontier ≠ 0) :
    Retained d c frontier (retainFrontier d c frontier) := by
  have hlength := h.frontiers.length_eq_size
  have hle := h.frontiers_le
  rw [retainFrontier, if_neg hpos]
  cases hc : d.evictedFrontiers[c]? with
  | some old =>
    have hcontains : d.evictedFrontiers.contains c = true := by
      rw [ExtTreeMap.contains_eq_isSome_getElem?, hc]
      rfl
    simp only [hcontains, if_true]
    rw [trimFrontiers_of_le (by omega)]
    refine ⟨rfl, h.frontiers.put hc _, ?_, ?_, ?_⟩
    · simp only [size_insert_of_present _ hc]
      exact hle
    · simp only [getElem?_put, if_true]
    · intro a hne
      simp [getElem?_put, Ne.symm hne, hc]
  | none =>
    have hcontains : d.evictedFrontiers.contains c = false := by
      rw [ExtTreeMap.contains_eq_isSome_getElem?, hc]
      rfl
    simp only [hcontains, Bool.false_eq_true, if_false]
    have hpush := h.frontiers.push hc frontier
    have hsize := size_insert_of_fresh frontier hc
    by_cases hfull : d.frontierOrder.length = d.maxClientWindows
    · cases horder : d.frontierOrder with
      | nil =>
        have := h.windows_pos
        rw [horder, List.length_nil] at hfull
        omega
      | cons oldest rest =>
        have hrest : (rest ++ [c]).length = d.maxClientWindows := by
          rw [← hfull, horder]
          simp
        rw [List.cons_append, trimFrontiers_of_over hrest]
        rw [horder, List.cons_append] at hpush
        have hne : oldest ≠ c := by
          rintro rfl
          have := hpush.nodup
          simp at this
        have hnot : oldest ∉ rest ++ [c] := (List.nodup_cons.mp hpush.nodup).1
        have hfilter : (oldest :: (rest ++ [c])).filter (· ≠ oldest) = rest ++ [c] := by
          rw [List.filter_cons_of_neg (by simp), List.filter_eq_self]
          intro a ha
          simpa using ne_of_mem_of_not_mem ha hnot
        have hdrop := hpush.drop oldest
        rw [hfilter] at hdrop
        refine ⟨rfl, hdrop, ?_, ?_, ?_⟩
        · rw [← hdrop.length_eq_size]
          exact Nat.le_of_eq hrest
        · simp only [getElem?_drop, getElem?_put, hne, if_false, if_true]
        · intro a ha
          have hdropped : droppedFrontier d = some oldest := by
            rw [droppedFrontier, if_pos hfull, horder]
            rfl
          simp only [getElem?_drop, getElem?_put, if_neg (Ne.symm ha), hdropped, hc,
            Option.some.injEq, true_and]
    · rw [trimFrontiers_of_le (by rw [List.length_append, List.length_singleton]; omega)]
      refine ⟨rfl, hpush, ?_, ?_, ?_⟩
      · simp only [hsize]
        omega
      · simp only [getElem?_put, if_true]
      · intro a ha
        simp [getElem?_put, Ne.symm ha, droppedFrontier, hfull]

theorem Retained.core {frontier : Nat} (hretained : Retained d c frontier d')
    (h : Core d) : Core d' := by
  rw [hretained.rest]
  exact { h with frontiers := hretained.listing, frontiers_le := hretained.size_le }

theorem Core.retainFrontier (h : Core d) (c : Bytes) (frontier : Nat) :
    Core (retainFrontier d c frontier) := by
  by_cases hpos : frontier = 0
  · rw [hpos, retainFrontier_zero]
    exact h
  · exact (retainFrontier_retained h c hpos).core h

theorem retainFrontier_clients (d : EventDeduplicator) (c : Bytes) (frontier : Nat) :
    (retainFrontier d c frontier).clients = d.clients := by
  unfold retainFrontier
  split <;> rfl

theorem retainFrontier_limits (d : EventDeduplicator) (c : Bytes) (frontier : Nat) :
    (retainFrontier d c frontier).maxClientWindows = d.maxClientWindows ∧
      (retainFrontier d c frontier).maxEntriesPerClient = d.maxEntriesPerClient := by
  unfold retainFrontier
  split <;> exact ⟨rfl, rfl⟩

/-!
Eviction of a client's window.
-/

theorem evictableClient_iff : evictableClient d c = true ↔
    ∃ w : ClientDedupeWindow, d.clients[c]? = some w ∧ isPinned w = false := by
  rw [evictableClient]
  cases hc : d.clients[c]? with
  | none => simp
  | some w => simp

def withoutWindow (d : EventDeduplicator) (c : Bytes) : EventDeduplicator :=
  { d with clientOrder := d.clientOrder.filter (· ≠ c), clients := d.clients.erase c }

theorem Core.withoutWindow (h : Core d) (c : Bytes) : Core (withoutWindow d c) where
  entries_pos := h.entries_pos
  windows_pos := h.windows_pos
  clients := h.clients.drop c
  frontiers := h.frontiers
  clients_le := Nat.le_trans ExtTreeMap.size_erase_le h.clients_le
  frontiers_le := h.frontiers_le
  windows := (h.removeClient c).windows

theorem evictClient_eq (h : Core d)
    (hfind : d.clientOrder.find? (evictableClient d) = some c) (hc : d.clients[c]? = some w) :
    evictClient d c =
      retainFrontier (Representation.withoutWindow d c) c w.lastContiguousProcessedSeq := by
  rw [evictClient, eraseP_eq_filter h.clients.nodup hfind, hc]
  rfl

theorem makeRoomForNewClient_room (rounds : Nat) (hroom : d.clients.size < d.maxClientWindows) :
    makeRoomForNewClient rounds d = (d, .ok ()) := by
  cases rounds <;> simp [makeRoomForNewClient, hroom]

theorem makeRoomForNewClient_pinned (rounds : Nat)
    (hroom : ¬ d.clients.size < d.maxClientWindows)
    (hfind : d.clientOrder.find? (evictableClient d) = none) :
    makeRoomForNewClient rounds d =
      (d, .error (.clientWindowCapacityExhausted d.maxClientWindows)) := by
  cases rounds <;> simp only [makeRoomForNewClient, if_neg hroom, hfind]

theorem makeRoomForNewClient_evict (rounds : Nat) {e : Bytes}
    (hroom : ¬ d.clients.size < d.maxClientWindows)
    (hfind : d.clientOrder.find? (evictableClient d) = some e) :
    makeRoomForNewClient (rounds + 1) d = makeRoomForNewClient rounds (evictClient d e) := by
  rw [makeRoomForNewClient, if_neg hroom, hfind]

/-- What `make_room_for_new_client` does: nothing when there is room, a refusal
when every window is pinned, and otherwise the eviction of one window. -/
theorem makeRoomForNewClient_cases (h : Core d) :
    (d.clients.size < d.maxClientWindows ∧
      makeRoomForNewClient d.clients.size d = (d, .ok ())) ∨
    (d.clients.size = d.maxClientWindows ∧
      d.clientOrder.find? (evictableClient d) = none ∧
      makeRoomForNewClient d.clients.size d =
        (d, .error (.clientWindowCapacityExhausted d.maxClientWindows))) ∨
    (d.clients.size = d.maxClientWindows ∧ ∃ (e : Bytes) (w : ClientDedupeWindow),
      d.clientOrder.find? (evictableClient d) = some e ∧ d.clients[e]? = some w ∧
      isPinned w = false ∧ makeRoomForNewClient d.clients.size d =
        (retainFrontier (Representation.withoutWindow d e) e w.lastContiguousProcessedSeq,
          .ok ())) := by
  by_cases hroom : d.clients.size < d.maxClientWindows
  · refine Or.inl ⟨hroom, ?_⟩
    exact makeRoomForNewClient_room _ hroom
  · have hfull : d.clients.size = d.maxClientWindows :=
      Nat.le_antisymm h.clients_le (Nat.not_lt.mp hroom)
    right
    cases hfind : d.clientOrder.find? (evictableClient d) with
    | none =>
      refine Or.inl ⟨hfull, rfl, ?_⟩
      exact makeRoomForNewClient_pinned _ hroom hfind
    | some e =>
      obtain ⟨w, hw, hpinned⟩ := evictableClient_iff.mp (List.find?_some hfind)
      refine Or.inr ⟨hfull, e, w, rfl, hw, hpinned, ?_⟩
      have hsize := size_erase_of_present hw
      obtain ⟨rounds, hrounds⟩ : ∃ rounds, d.clients.size = rounds + 1 := ⟨_, hsize.symm⟩
      rw [hrounds, makeRoomForNewClient_evict rounds hroom hfind, evictClient_eq h hfind hw]
      refine makeRoomForNewClient_room rounds ?_
      rw [retainFrontier_clients, (retainFrontier_limits _ _ _).1]
      change (d.clients.erase e).size < d.maxClientWindows
      omega

theorem Core.makeRoom (h : Core d) : Core (makeRoomForNewClient d.clients.size d).1 := by
  obtain ⟨-, heq⟩ | ⟨-, -, heq⟩ | ⟨-, e, w, -, -, -, heq⟩ := makeRoomForNewClient_cases h
  · rw [heq]
    exact h
  · rw [heq]
    exact h
  · rw [heq]
    exact (h.withoutWindow e).retainFrontier e _

/-!
What a call does to a client other than the one it names: nothing, the loss of
its retained frontier, or the eviction of an unpinned window.
-/

def Bystander (d d' : EventDeduplicator) (a : Bytes) : Prop :=
  (d'.clients[a]? = d.clients[a]? ∧
    (d'.evictedFrontiers[a]? = d.evictedFrontiers[a]? ∨ d'.evictedFrontiers[a]? = none)) ∨
  (∃ w : ClientDedupeWindow, d.clients[a]? = some w ∧ isPinned w = false ∧
    d'.clients[a]? = none ∧ (w.lastContiguousProcessedSeq ≠ 0 →
      d'.evictedFrontiers[a]? = some w.lastContiguousProcessedSeq))

theorem Bystander.refl (d : EventDeduplicator) (a : Bytes) : Bystander d d a :=
  Or.inl ⟨rfl, Or.inl rfl⟩

theorem Bystander.of_eq (hclients : d'.clients[a]? = d.clients[a]?)
    (hfrontiers : d'.evictedFrontiers[a]? = d.evictedFrontiers[a]?) : Bystander d d' a :=
  Or.inl ⟨hclients, Or.inl hfrontiers⟩

variable {e : EventDeduplicator}

theorem Bystander.congr {e' : EventDeduplicator} (h : Bystander d d' a)
    (hclients : e.clients[a]? = d.clients[a]?)
    (hfrontiers : e.evictedFrontiers[a]? = d.evictedFrontiers[a]?)
    (hclients' : e'.clients[a]? = d'.clients[a]?)
    (hfrontiers' : e'.evictedFrontiers[a]? = d'.evictedFrontiers[a]?) : Bystander e e' a := by
  unfold Bystander
  rw [hclients, hfrontiers, hclients', hfrontiers']
  exact h

theorem retainFrontier_bystander (h : Core d) (frontier : Nat) (hne : a ≠ c) :
    Bystander d (retainFrontier d c frontier) a := by
  by_cases hpos : frontier = 0
  · rw [hpos, retainFrontier_zero]
    exact Bystander.refl d a
  · refine Or.inl ⟨by rw [retainFrontier_clients], ?_⟩
    rw [(retainFrontier_retained h c hpos).others a hne]
    split
    · exact Or.inr rfl
    · exact Or.inl rfl

theorem makeRoom_bystander (h : Core d) (a : Bytes) :
    Bystander d (makeRoomForNewClient d.clients.size d).1 a := by
  obtain ⟨-, heq⟩ | ⟨-, -, heq⟩ | ⟨-, e, w, -, hw, hpinned, heq⟩ := makeRoomForNewClient_cases h
  · rw [heq]
    exact Bystander.refl d a
  · rw [heq]
    exact Bystander.refl d a
  · rw [heq]
    by_cases hae : a = e
    · subst hae
      refine Or.inr ⟨w, hw, hpinned, ?_, fun hpos => ?_⟩
      · rw [retainFrontier_clients]
        change (d.clients.erase a)[a]? = none
        rw [getElem?_drop, if_pos rfl]
      · exact (retainFrontier_retained (h.withoutWindow a) a hpos).own
    · refine (retainFrontier_bystander (h.withoutWindow e) _ hae).congr ?_ rfl rfl rfl
      change d.clients[a]? = (d.clients.erase e)[a]?
      rw [getElem?_drop, if_neg (Ne.symm hae)]

theorem makeRoom_ok (h : Core d)
    (hok : makeRoomForNewClient d.clients.size d = (e, .ok ())) :
    e.clients.size < d.maxClientWindows ∧ e.maxClientWindows = d.maxClientWindows ∧
      e.maxEntriesPerClient = d.maxEntriesPerClient := by
  obtain ⟨hroom, heq⟩ | ⟨-, -, heq⟩ | ⟨hfull, b, w, -, hw, -, heq⟩ := makeRoomForNewClient_cases h
  · rw [heq, Prod.mk.injEq] at hok
    exact hok.1 ▸ ⟨hroom, rfl, rfl⟩
  · rw [heq] at hok
    simp at hok
  · rw [heq, Prod.mk.injEq] at hok
    have hsize := size_erase_of_present hw
    rw [← hok.1, retainFrontier_clients]
    refine ⟨?_, retainFrontier_limits _ _ _⟩
    change (d.clients.erase b).size < d.maxClientWindows
    omega

theorem makeRoom_error {error : EventSequenceError} (h : Core d)
    (herror : makeRoomForNewClient d.clients.size d = (e, .error error)) :
    e = d ∧ error ≠ .receiveWindowFull ∧ ¬ d.clients.size < d.maxClientWindows ∧
      d.clientOrder.find? (evictableClient d) = none := by
  obtain ⟨-, heq⟩ | ⟨hfull, hfind, heq⟩ | ⟨-, b, w, -, hw, -, heq⟩ := makeRoomForNewClient_cases h
  · rw [heq] at herror
    simp at herror
  · rw [heq, Prod.mk.injEq, Except.error.injEq] at herror
    refine ⟨herror.1.symm, ?_, by omega, hfind⟩
    rw [← herror.2]
    simp
  · rw [heq] at herror
    simp at herror

def withoutFrontier (d : EventDeduplicator) (c : Bytes) : EventDeduplicator :=
  { d with evictedFrontiers := d.evictedFrontiers.erase c
           frontierOrder := d.frontierOrder.filter (· ≠ c) }

theorem Core.withoutFrontier (h : Core d) (c : Bytes) : Core (withoutFrontier d c) where
  entries_pos := h.entries_pos
  windows_pos := h.windows_pos
  clients := h.clients
  frontiers := h.frontiers.drop c
  clients_le := h.clients_le
  frontiers_le := Nat.le_trans ExtTreeMap.size_erase_le h.frontiers_le
  windows := h.windows

def restartFrontier (d : EventDeduplicator) (c : Bytes) : Nat := d.evictedFrontiers[c]?.getD 0

theorem windowForNewClient_eq (h : Core d) (c : Bytes) :
    windowForNewClient d c =
      (Representation.withoutFrontier d c,
        ClientDedupeWindow.startingAt (restartFrontier d c)) := by
  unfold windowForNewClient restartFrontier
  cases hc : d.evictedFrontiers[c]? with
  | some frontier => rfl
  | none =>
    have herase : d.evictedFrontiers.erase c = d.evictedFrontiers := by
      apply ExtTreeMap.ext_getElem?
      intro k
      rw [getElem?_drop]
      split
      · rename_i heq
        rw [← heq, hc]
      · rfl
    have hfilter : d.frontierOrder.filter (· ≠ c) = d.frontierOrder := by
      rw [List.filter_eq_self]
      intro a ha
      simpa using ne_of_mem_of_not_mem ha (h.frontiers.not_mem_of_fresh hc)
    unfold Representation.withoutFrontier
    rw [herase, hfilter]
    rfl

/-!
The calls, one inversion each.
-/

/-- The window a call of `admit_event` for a client without one works on, after
the admission. -/
def restartedWindow (d : EventDeduplicator) (event : Event) : ClientDedupeWindow :=
  (admitToWindow (ClientDedupeWindow.startingAt (restartFrontier d event.clientInstanceId)) event.eventId
    event.eventSeq event.eventType d.maxEntriesPerClient).1

theorem admitEvent_cases (h : Core d) (event : Event) :
    (event.eventId = [] ∧ admitEvent d event = (d, .error .missingEventId)) ∨
    (event.eventId ≠ [] ∧ ∃ w : ClientDedupeWindow,
      d.clients[event.clientInstanceId]? = some w ∧ admitEvent d event =
        (putWindow (touchClient d event.clientInstanceId) event.clientInstanceId
          (admitToWindow w event.eventId event.eventSeq event.eventType d.maxEntriesPerClient).1,
        (admitToWindow w event.eventId event.eventSeq event.eventType d.maxEntriesPerClient).2)) ∨
    (event.eventId ≠ [] ∧ d.clients[event.clientInstanceId]? = none ∧
      ∃ e, e ≠ EventSequenceError.receiveWindowFull ∧ admitEvent d event =
        (retainFrontier (withoutFrontier d event.clientInstanceId) event.clientInstanceId
          (restartFrontier d event.clientInstanceId), .error e)) ∨
    (event.eventId ≠ [] ∧ d.clients[event.clientInstanceId]? = none ∧
      ∃ d' : EventDeduplicator,
        makeRoomForNewClient (withoutFrontier d event.clientInstanceId).clients.size
          (withoutFrontier d event.clientInstanceId) = (d', .ok ()) ∧
        Admissible d.maxEntriesPerClient
          (ClientDedupeWindow.startingAt (restartFrontier d event.clientInstanceId))
          event.eventId event.eventSeq ∧
        admitEvent d event = (addClient d' event.clientInstanceId (restartedWindow d event),
          .ok (.fresh (restartFrontier d event.clientInstanceId)))) := by
  unfold admitEvent
  by_cases hid : event.eventId = []
  · exact Or.inl ⟨hid, if_pos hid⟩
  · right
    rw [if_neg hid]
    cases hc : d.clients[event.clientInstanceId]? with
    | some w => exact Or.inl ⟨hid, w, rfl, rfl⟩
    | none =>
      right
      simp only [windowForNewClient_eq h]
      have hstart := windowInv_startingAt d.maxEntriesPerClient
        (restartFrontier d event.clientInstanceId)
      obtain ⟨r, hr, -⟩ | ⟨-, -, e, hnotFull, heq⟩ | ⟨hok, heq⟩ :=
        admit_cases hstart h.entries_pos event.eventId event.eventSeq event.eventType
      · simp [ClientDedupeWindow.startingAt] at hr
      · refine Or.inl ⟨hid, trivial, e, hnotFull, ?_⟩
        rw [heq]
        rfl
      · have hwindow := congrArg Prod.fst heq
        simp only at hwindow
        rw [heq]
        simp only
        generalize hroom : makeRoomForNewClient
          (withoutFrontier d event.clientInstanceId).clients.size
          (withoutFrontier d event.clientInstanceId) = made
        obtain ⟨d', result⟩ := made
        cases result with
        | error error =>
          obtain ⟨rfl, hnotFull, -⟩ := makeRoom_error (h.withoutFrontier _) hroom
          exact Or.inl ⟨hid, trivial, error, hnotFull, rfl⟩
        | ok value =>
          refine Or.inr ⟨hid, trivial, d', rfl, hok, ?_⟩
          unfold restartedWindow
          rw [hwindow]
          rfl

theorem withoutFrontier_own (d : EventDeduplicator) (c : Bytes) :
    (withoutFrontier d c).evictedFrontiers[c]? = none := by
  change (d.evictedFrontiers.erase c)[c]? = none
  rw [getElem?_drop, if_pos rfl]

theorem withoutFrontier_other (d : EventDeduplicator) (hne : a ≠ c) :
    (withoutFrontier d c).evictedFrontiers[a]? = d.evictedFrontiers[a]? := by
  change (d.evictedFrontiers.erase c)[a]? = _
  rw [getElem?_drop, if_neg (Ne.symm hne)]

theorem touchClient_fields (d : EventDeduplicator) (c : Bytes) :
    (touchClient d c).clients = d.clients ∧
      (touchClient d c).evictedFrontiers = d.evictedFrontiers ∧
      (touchClient d c).maxEntriesPerClient = d.maxEntriesPerClient := by
  obtain ⟨order, -, heq⟩ := touchClient_eq d c
  rw [heq]
  exact ⟨rfl, rfl, rfl⟩

theorem Core.touchPut (h : Core d) {w' : ClientDedupeWindow}
    (hc : d.clients[c]? = some w) (hw' : WindowInv d.maxEntriesPerClient w') :
    Core (Deduplicators.putWindow (touchClient d c) c w') := by
  obtain ⟨hclients, -, hentries⟩ := touchClient_fields d c
  refine (h.touch c).putWindow (w := w) ?_ ?_
  · rw [hclients, hc]
  · rw [hentries]
    exact hw'

theorem touchPut_lookup (d : EventDeduplicator) (c : Bytes) (w' : ClientDedupeWindow) (a : Bytes) :
    (putWindow (touchClient d c) c w').clients[a]? = if c = a then some w' else d.clients[a]? := by
  change ((touchClient d c).clients.insert c w')[a]? = _
  rw [getElem?_put, (touchClient_fields d c).1]

theorem touchPut_frontiers (d : EventDeduplicator) (c : Bytes) (w' : ClientDedupeWindow) :
    (putWindow (touchClient d c) c w').evictedFrontiers = d.evictedFrontiers :=
  (touchClient_fields d c).2.1

theorem addClient_lookup (d : EventDeduplicator) (c : Bytes) (w : ClientDedupeWindow) (a : Bytes) :
    (addClient d c w).clients[a]? = if c = a then some w else d.clients[a]? :=
  getElem?_put _ _ _ _

theorem restartedWindow_windowInv (h : Core d) (event : Event) :
    WindowInv d.maxEntriesPerClient (restartedWindow d event) :=
  admit_windowInv (windowInv_startingAt _ _) h.entries_pos _ _ _

theorem makeRoom_keeps_absent (h : Core d) (hc : d.clients[c]? = none) :
    (makeRoomForNewClient d.clients.size d).1.clients[c]? = none ∧
      (d.evictedFrontiers[c]? = none →
        (makeRoomForNewClient d.clients.size d).1.evictedFrontiers[c]? = none) := by
  obtain ⟨hclients, hfrontiers⟩ | ⟨w, hw, -⟩ := makeRoom_bystander h c
  · refine ⟨by rw [hclients, hc], fun hnone => ?_⟩
    rcases hfrontiers with heq | heq
    · rw [heq, hnone]
    · exact heq
  · rw [hc] at hw
    simp at hw

theorem Core.admitEvent (h : Core d) (event : Event) : Core (admitEvent d event).1 := by
  obtain ⟨-, heq⟩ | ⟨-, w, hc, heq⟩ | ⟨-, -, e, -, heq⟩ | ⟨-, hc, d', hroom, -, heq⟩ :=
    admitEvent_cases h event
  · rw [heq]
    exact h
  · rw [heq]
    exact h.touchPut hc (admit_windowInv (h.windows _ _ hc) h.entries_pos _ _ _)
  · rw [heq]
    exact (h.withoutFrontier _).retainFrontier _ _
  · rw [heq]
    have hwithout := h.withoutFrontier event.clientInstanceId
    obtain ⟨hsize, hwindows, hentries⟩ := makeRoom_ok hwithout hroom
    have hmade := hwithout.makeRoom
    have habsent := (makeRoom_keeps_absent hwithout hc).1
    rw [hroom] at hmade habsent
    refine hmade.addClient habsent ?_ ?_
    · rw [hwindows]
      exact hsize
    · rw [hentries]
      exact restartedWindow_windowInv h event

theorem admitEvent_bystander (h : Core d) (event : Event)
    (hne : a ≠ event.clientInstanceId) : Bystander d (admitEvent d event).1 a := by
  obtain ⟨-, heq⟩ | ⟨-, w, -, heq⟩ | ⟨-, -, e, -, heq⟩ | ⟨-, -, d', hroom, -, heq⟩ :=
    admitEvent_cases h event
  · rw [heq]
    exact Bystander.refl d a
  · rw [heq]
    refine Bystander.of_eq ?_ ?_
    · rw [touchPut_lookup, if_neg (Ne.symm hne)]
    · rw [touchPut_frontiers]
  · rw [heq]
    exact (retainFrontier_bystander (h.withoutFrontier _) _ hne).congr rfl
      (withoutFrontier_other d hne).symm rfl rfl
  · rw [heq]
    have hmade := makeRoom_bystander (h.withoutFrontier event.clientInstanceId) a
    rw [hroom] at hmade
    refine hmade.congr rfl (withoutFrontier_other d hne).symm ?_ rfl
    rw [addClient_lookup, if_neg (Ne.symm hne)]

structure OnlyWindow (d : EventDeduplicator) (c : Bytes)
    (change : ClientDedupeWindow → ClientDedupeWindow) (d' : EventDeduplicator) : Prop where
  core : Core d'
  own : d'.clients[c]? = d.clients[c]?.map change
  others : ∀ a : Bytes, a ≠ c → d'.clients[a]? = d.clients[a]?
  frontiers : d'.evictedFrontiers = d.evictedFrontiers
  entries : d'.maxEntriesPerClient = d.maxEntriesPerClient

variable {change : ClientDedupeWindow → ClientDedupeWindow}

theorem OnlyWindow.bystander
    (h : OnlyWindow d c change d') (hne : a ≠ c) : Bystander d d' a :=
  Bystander.of_eq (h.others a hne) (by rw [h.frontiers])

theorem OnlyWindow.refl (h : Core d) (c : Bytes) : OnlyWindow d c id d where
  core := h
  own := by simp
  others := fun _ _ => rfl
  frontiers := rfl
  entries := rfl

theorem onlyWindow_touch (h : Core d) : OnlyWindow d c id (touchClient d c) where
  core := h.touch c
  own := by simp [(touchClient_fields d c).1]
  others := fun _ _ => by rw [(touchClient_fields d c).1]
  frontiers := (touchClient_fields d c).2.1
  entries := (touchClient_fields d c).2.2

theorem onlyWindow_touchPut
    (change : ClientDedupeWindow → ClientDedupeWindow) (h : Core d) (hc : d.clients[c]? = some w)
    (hchange : WindowInv d.maxEntriesPerClient (change w)) :
    OnlyWindow d c change (putWindow (touchClient d c) c (change w)) where
  core := h.touchPut hc hchange
  own := by simp [touchPut_lookup, hc]
  others := fun a hne => by rw [touchPut_lookup, if_neg (Ne.symm hne)]
  frontiers := touchPut_frontiers d c _
  entries := (touchClient_fields d c).2.2

theorem OnlyWindow.of_absent {change' : ClientDedupeWindow → ClientDedupeWindow}
    (h : OnlyWindow d c change d') (hc : d.clients[c]? = none) : OnlyWindow d c change' d' where
  core := h.core
  own := by rw [h.own, hc, Option.map_none, Option.map_none]
  others := h.others
  frontiers := h.frontiers
  entries := h.entries

def whenNamed (id : Bytes) (change : ClientDedupeWindow → ClientDedupeWindow) :
    ClientDedupeWindow → ClientDedupeWindow :=
  if id = [] then fun w => w else change

theorem settleEvent_onlyWindow (h : Core d) (event : Event) (outcome : EventOutcomeRecord) :
    OnlyWindow d event.clientInstanceId
      (whenNamed event.eventId fun w => (settle w event.eventId outcome).1)
      (settleEvent d event outcome).1 := by
  unfold settleEvent whenNamed
  by_cases hid : event.eventId = []
  · rw [if_pos hid, if_pos hid]
    exact OnlyWindow.refl h _
  · rw [if_neg hid, if_neg hid]
    cases hc : d.clients[event.clientInstanceId]? with
    | none => exact (onlyWindow_touch h).of_absent hc
    | some w =>
      exact onlyWindow_touchPut (fun w => (settle w event.eventId outcome).1) h hc
        (settle_windowInv (h.windows _ _ hc) _ _)

theorem abandonEvent_onlyWindow (h : Core d) (event : Event) :
    OnlyWindow d event.clientInstanceId
      (whenNamed event.eventId fun w => abandon w event.eventId) (abandonEvent d event) := by
  unfold abandonEvent whenNamed
  by_cases hid : event.eventId = []
  · rw [if_pos hid, if_pos hid]
    exact OnlyWindow.refl h _
  · rw [if_neg hid, if_neg hid]
    cases hc : d.clients[event.clientInstanceId]? with
    | none => exact (OnlyWindow.refl h _).of_absent hc
    | some w =>
      refine ⟨h.putWindow hc (abandon_windowInv (h.windows _ _ hc) _), ?_, ?_, rfl, rfl⟩
      · change (d.clients.insert _ _)[_]? = _
        simp [hc]
      · intro a hne
        change (d.clients.insert _ _)[a]? = _
        rw [getElem?_put, if_neg (Ne.symm hne)]

theorem admitEvent_onlyWindow (h : Core d) {event : Event}
    (hc : d.clients[event.clientInstanceId]? = some w) :
    OnlyWindow d event.clientInstanceId
      (whenNamed event.eventId fun w => (admitToWindow w event.eventId event.eventSeq event.eventType
        d.maxEntriesPerClient).1) (admitEvent d event).1 := by
  unfold whenNamed
  by_cases hid : event.eventId = []
  · rw [if_pos hid, admitEvent, if_pos hid]
    exact OnlyWindow.refl h _
  · rw [if_neg hid]
    simp only [admitEvent, if_neg hid, hc]
    exact onlyWindow_touchPut (fun w => (admitToWindow w event.eventId event.eventSeq
      event.eventType d.maxEntriesPerClient).1) h hc
      (admit_windowInv (h.windows _ _ hc) h.entries_pos _ _ _)

theorem admitAndSettle_eq (d : EventDeduplicator) (event : Event) (outcome : EventOutcomeRecord) :
    (admitAndSettle d event outcome).1 = (admitEvent d event).1 ∨
      (admitAndSettle d event outcome).1 =
        (settleEvent (admitEvent d event).1 event outcome).1 := by
  unfold admitAndSettle
  split <;> rename_i heq <;> rw [heq]
  · exact Or.inl rfl
  · exact Or.inl rfl
  · exact Or.inr rfl

section

variable (h : Core d)

include h

theorem admitAndSettle_core (event : Event) (outcome : EventOutcomeRecord) :
    Core (admitAndSettle d event outcome).1 := by
  rcases admitAndSettle_eq d event outcome with heq | heq
  · rw [heq]
    exact h.admitEvent event
  · rw [heq]
    exact (settleEvent_onlyWindow (h.admitEvent event) event outcome).core

theorem admitAndSettle_bystander (event : Event) (outcome : EventOutcomeRecord)
    (hne : a ≠ event.clientInstanceId) :
    Bystander d (admitAndSettle d event outcome).1 a := by
  have hadmits := admitEvent_bystander h event hne
  rcases admitAndSettle_eq d event outcome with heq | heq
  · rw [heq]
    exact hadmits
  · rw [heq]
    have hsettle := settleEvent_onlyWindow (h.admitEvent event) event outcome
    exact hadmits.congr rfl rfl (hsettle.others a hne) (by rw [hsettle.frontiers])

/-- `record`, with the window of a client it has none for built afresh. -/
theorem record_cases (c id : Bytes) :
    (∃ w : ClientDedupeWindow, d.clients[c]? = some w ∧
      OnlyWindow d c (whenNamed id fun w => (insertLegacySettled w id ⟨true, 0, ""⟩
        d.maxEntriesPerClient).1) (record d c id).1) ∨
    ((record d c id).1 = d ∧ d.clients[c]? = none ∧ (id = [] ∨
      ¬ d.clients.size < d.maxClientWindows ∧
        d.clientOrder.find? (evictableClient d) = none)) ∨
    (id ≠ [] ∧ d.clients[c]? = none ∧ ∃ d' : EventDeduplicator,
      makeRoomForNewClient d.clients.size d = (d', .ok ()) ∧
      (record d c id).1 = addClient d' c (insertLegacySettled ClientDedupeWindow.new id
        ⟨true, 0, ""⟩ d.maxEntriesPerClient).1) := by
  unfold record whenNamed
  by_cases hid : id = []
  · rw [if_pos hid, if_pos hid]
    cases hc : d.clients[c]? with
    | some w => exact Or.inl ⟨w, rfl, OnlyWindow.refl h c⟩
    | none => exact Or.inr (Or.inl ⟨rfl, rfl, Or.inl hid⟩)
  · rw [if_neg hid, if_neg hid]
    cases hc : d.clients[c]? with
    | some w =>
      exact Or.inl ⟨w, rfl, onlyWindow_touchPut (fun w => (insertLegacySettled w id
        ⟨true, 0, ""⟩ d.maxEntriesPerClient).1) h hc
        (insertLegacySettled_windowInv (h.windows _ _ hc) _ _)⟩
    | none =>
      right
      simp only
      generalize hroom : makeRoomForNewClient d.clients.size d = made
      obtain ⟨d', result⟩ := made
      cases result with
      | error e =>
        obtain ⟨rfl, -, hpinned⟩ := makeRoom_error h hroom
        exact Or.inl ⟨rfl, trivial, Or.inr hpinned⟩
      | ok value => exact Or.inr ⟨hid, trivial, d', rfl, rfl⟩

theorem record_core (c id : Bytes) : Core (record d c id).1 := by
  obtain ⟨w, -, honly⟩ | ⟨heq, -⟩ | ⟨-, hc, d', hroom, heq⟩ := record_cases h c id
  · exact honly.core
  · rw [heq]
    exact h
  · rw [heq]
    obtain ⟨hsize, hwindows, hentries⟩ := makeRoom_ok h hroom
    have hmade := h.makeRoom
    have habsent := (makeRoom_keeps_absent h hc).1
    rw [hroom] at hmade habsent
    refine hmade.addClient habsent ?_ ?_
    · rw [hwindows]
      exact hsize
    · rw [hentries]
      exact insertLegacySettled_windowInv (windowInv_startingAt _ 0) _ _

theorem record_bystander (c id : Bytes) (hne : a ≠ c) :
    Bystander d (record d c id).1 a := by
  obtain ⟨w, -, honly⟩ | ⟨heq, -⟩ | ⟨-, -, d', hroom, heq⟩ := record_cases h c id
  · exact honly.bystander hne
  · rw [heq]
    exact Bystander.refl d a
  · rw [heq]
    have hmade := makeRoom_bystander h a
    rw [hroom] at hmade
    refine hmade.congr rfl rfl ?_ rfl
    rw [addClient_lookup, if_neg (Ne.symm hne)]

theorem callStep_core (call : Call) : Core (callStep d call) := by
  cases call with
  | admitEvent event => exact h.admitEvent event
  | settleEvent event outcome => exact (settleEvent_onlyWindow h event outcome).core
  | abandonEvent event => exact (abandonEvent_onlyWindow h event).core
  | admitAndSettle event outcome => exact admitAndSettle_core h event outcome
  | record client eventId => exact record_core h client eventId
  | removeClient client => exact h.removeClient client
  | clear =>
    refine ⟨h.entries_pos, h.windows_pos, Listing.empty, Listing.empty, ?_, ?_, ?_⟩
    all_goals simp [callStep, clear]

theorem admitEvent_entries (event : Event) :
    (admitEvent d event).1.maxEntriesPerClient = d.maxEntriesPerClient := by
  obtain ⟨-, heq⟩ | ⟨-, w, hc, -⟩ | ⟨-, -, e, -, heq⟩ | ⟨-, -, d', hroom, -, heq⟩ :=
    admitEvent_cases h event
  · rw [heq]
  · exact (admitEvent_onlyWindow h hc).entries
  · rw [heq, (retainFrontier_limits _ _ _).2]
    rfl
  · rw [heq]
    exact (makeRoom_ok (h.withoutFrontier _) hroom).2.2

theorem callStep_entries (call : Call) :
    (callStep d call).maxEntriesPerClient = d.maxEntriesPerClient := by
  cases call with
  | admitEvent event => exact admitEvent_entries h event
  | settleEvent event outcome => exact (settleEvent_onlyWindow h event outcome).entries
  | abandonEvent event => exact (abandonEvent_onlyWindow h event).entries
  | admitAndSettle event outcome =>
    change (admitAndSettle d event outcome).1.maxEntriesPerClient = _
    rcases admitAndSettle_eq d event outcome with heq | heq
    · rw [heq, admitEvent_entries h]
    · rw [heq, (settleEvent_onlyWindow (h.admitEvent event) event outcome).entries,
        admitEvent_entries h]
  | record client eventId =>
    change (record d client eventId).1.maxEntriesPerClient = _
    obtain ⟨_, -, honly⟩ | ⟨heq, -⟩ | ⟨-, -, d', hroom, heq⟩ := record_cases h client eventId
    · exact honly.entries
    · rw [heq]
    · rw [heq]
      exact (makeRoom_ok h hroom).2.2
  | removeClient client => rfl
  | clear => rfl

end

def callClient : Call → Option Bytes
  | .admitEvent event => some event.clientInstanceId
  | .settleEvent event _ => some event.clientInstanceId
  | .abandonEvent event => some event.clientInstanceId
  | .admitAndSettle event _ => some event.clientInstanceId
  | .record client _ => some client
  | .removeClient client => some client
  | .clear => none

def Removes (call : Call) (c : Bytes) : Prop := call = .removeClient c ∨ call = .clear

theorem callStep_bystander (h : Core d) {call : Call} (hne : callClient call ≠ some a)
    (hkeeps : ¬ Removes call a) : Bystander d (callStep d call) a := by
  have hother : ∀ {c : Bytes}, callClient call = some c → a ≠ c := by
    rintro c hc rfl
    exact hne hc
  cases call with
  | admitEvent event => exact admitEvent_bystander h event (hother rfl)
  | settleEvent event outcome =>
    exact (settleEvent_onlyWindow h event outcome).bystander (hother rfl)
  | abandonEvent event => exact (abandonEvent_onlyWindow h event).bystander (hother rfl)
  | admitAndSettle event outcome => exact admitAndSettle_bystander h event outcome (hother rfl)
  | record client eventId => exact record_bystander h client eventId (hother rfl)
  | removeClient client =>
    have hclient : client ≠ a := Ne.symm (hother rfl)
    refine Bystander.of_eq ?_ ?_
    · change (d.clients.erase client)[a]? = _
      rw [getElem?_drop, if_neg hclient]
    · change (d.evictedFrontiers.erase client)[a]? = _
      rw [getElem?_drop, if_neg hclient]
  | clear => exact absurd (Or.inr rfl) hkeeps

theorem OnlyWindow.live (h : OnlyWindow d c change d') (hc : d.clients[c]? = some w) :
    ∃ w', d'.clients[c]? = some w' := ⟨change w, by rw [h.own, hc, Option.map_some]⟩

theorem callStep_own_live (h : Core d) {call : Call}
    (hown : callClient call = some c) (hkeeps : ¬ Removes call c) (hc : d.clients[c]? = some w) :
    ∃ w', (callStep d call).clients[c]? = some w' := by
  cases call with
  | admitEvent event =>
    obtain rfl := Option.some.inj hown
    exact (admitEvent_onlyWindow h hc).live hc
  | settleEvent event outcome =>
    obtain rfl := Option.some.inj hown
    exact (settleEvent_onlyWindow h event outcome).live hc
  | abandonEvent event =>
    obtain rfl := Option.some.inj hown
    exact (abandonEvent_onlyWindow h event).live hc
  | admitAndSettle event outcome =>
    obtain rfl := Option.some.inj hown
    obtain ⟨w', hw'⟩ := (admitEvent_onlyWindow h hc).live hc
    change ∃ w', (admitAndSettle d event outcome).1.clients[event.clientInstanceId]? = some w'
    rcases admitAndSettle_eq d event outcome with heq | heq
    · rw [heq]
      exact ⟨w', hw'⟩
    · rw [heq]
      exact (settleEvent_onlyWindow (h.admitEvent event) event outcome).live hw'
  | record client eventId =>
    obtain rfl := Option.some.inj hown
    obtain ⟨_, -, honly⟩ | ⟨-, hnone, -⟩ | ⟨-, hnone, -⟩ := record_cases h client eventId
    · exact honly.live hc
    · rw [hc] at hnone
      simp at hnone
    · rw [hc] at hnone
      simp at hnone
  | removeClient client =>
    obtain rfl := Option.some.inj hown
    exact absurd (Or.inl rfl) hkeeps
  | clear => simp [callClient] at hown

/-- No call removes a window that holds an admission in flight or a settlement
above its frontier, except the calls that remove the client; a call for another
client does not even change it. -/
def PinnedKept (d : EventDeduplicator) (call : Call) : Prop :=
  ∀ (c : Bytes) (w : ClientDedupeWindow), d.clients[c]? = some w → ¬ Removes call c →
    ((∃ (id : Bytes) (seq : Nat) (ty : EventType), w.seenIds[id]? = some (.inFlight seq ty)) ∨
      ∃ seq ∈ w.settledOutOfOrder, w.lastContiguousProcessedSeq < seq) →
    (∃ w', (callStep d call).clients[c]? = some w') ∧
      (callClient call ≠ some c → (callStep d call).clients[c]? = some w)

theorem callStep_pinnedKept (h : Core d) (call : Call) : PinnedKept d call := by
  intro c w hc hkeeps hholds
  have hpinned : isPinned w = true := by
    rcases hholds with hflight | ⟨seq, hseq, -⟩
    · rw [isPinned, hasInFlight_iff.mpr hflight, Bool.true_or]
    · rw [isPinned, decide_eq_true (Finset.ne_empty_of_mem hseq), Bool.or_true]
  have hsame : callClient call ≠ some c → (callStep d call).clients[c]? = some w := by
    intro hother
    obtain ⟨hclients, -⟩ | ⟨w', hw', hnot, -⟩ := callStep_bystander h hother hkeeps
    · rw [hclients, hc]
    · rw [hc, Option.some.injEq] at hw'
      rw [← hw', hpinned] at hnot
      simp at hnot
  refine ⟨?_, hsame⟩
  by_cases hown : callClient call = some c
  · exact callStep_own_live h hown hkeeps hc
  · exact ⟨w, hsame hown⟩

/-!
Live windows and retained frontiers stay apart, except across one kind of call.
-/

theorem Bystander.separate (h : Bystander d d' a) (hsep : Separate d)
    (ha : d'.clients[a]? = some w) : d'.evictedFrontiers[a]? = none := by
  obtain ⟨hclients, hfrontiers⟩ | ⟨_, -, -, hnone, -⟩ := h
  · rw [hclients] at ha
    rcases hfrontiers with heq | heq
    · rw [heq, hsep a w ha]
    · exact heq
  · rw [ha] at hnone
    simp at hnone

theorem OnlyWindow.separate
    (h : OnlyWindow d c change d') (hsep : Separate d) : Separate d' := by
  intro a w ha
  by_cases hac : a = c
  · subst hac
    rw [h.own, Option.map_eq_some_iff] at ha
    obtain ⟨w', hw', -⟩ := ha
    rw [h.frontiers, hsep a w' hw']
  · exact (h.bystander hac).separate hsep ha

theorem Separate.admitEvent (hsep : Separate d) (h : Core d) (event : Event) :
    Separate (admitEvent d event).1 := by
  intro a w ha
  by_cases hac : a = event.clientInstanceId
  · subst hac
    obtain ⟨-, heq⟩ | ⟨-, w', hc, -⟩ | ⟨-, hc, e, -, heq⟩ | ⟨-, hc, d', hroom, -, heq⟩ :=
      admitEvent_cases h event
    · rw [heq] at ha ⊢
      exact hsep _ _ ha
    · exact (admitEvent_onlyWindow h hc).separate hsep _ _ ha
    · rw [heq, retainFrontier_clients] at ha
      change d.clients[event.clientInstanceId]? = some w at ha
      rw [hc] at ha
      simp at ha
    · rw [heq]
      have habsent := (makeRoom_keeps_absent (h.withoutFrontier _) hc).2 (withoutFrontier_own d _)
      rw [hroom] at habsent
      exact habsent
  · exact (admitEvent_bystander h event hac).separate hsep ha

theorem Separate.admitAndSettle (hsep : Separate d) (h : Core d) (event : Event)
    (outcome : EventOutcomeRecord) : Separate (admitAndSettle d event outcome).1 := by
  rcases admitAndSettle_eq d event outcome with heq | heq
  · rw [heq]
    exact hsep.admitEvent h event
  · rw [heq]
    exact (settleEvent_onlyWindow (h.admitEvent event) event outcome).separate
      (hsep.admitEvent h event)

/-- A `record` call for a client without a window that still has a retained
frontier, when a window can be given to it and that frontier is not the one the
eviction pushes out. -/
def RecordSplits (d : EventDeduplicator) : Call → Prop
  | .record client eventId =>
    eventId ≠ [] ∧ d.clients[client]? = none ∧ d.evictedFrontiers[client]? ≠ none ∧
      (d.clients.size < d.maxClientWindows ∨
        ∃ (e : Bytes) (w : ClientDedupeWindow),
          d.clientOrder.find? (evictableClient d) = some e ∧ d.clients[e]? = some w ∧
            ¬ (w.lastContiguousProcessedSeq ≠ 0 ∧ droppedFrontier d = some client))
  | _ => False

theorem makeRoom_frontier (h : Core d) (hsep : Separate d)
    (hc : d.clients[c]? = none) (hok : (makeRoomForNewClient d.clients.size d).2 = .ok ()) :
    (makeRoomForNewClient d.clients.size d).1.evictedFrontiers[c]? ≠ none ↔
      d.evictedFrontiers[c]? ≠ none ∧
        (d.clients.size < d.maxClientWindows ∨
          ∃ (e : Bytes) (w : ClientDedupeWindow),
            d.clientOrder.find? (evictableClient d) = some e ∧ d.clients[e]? = some w ∧
              ¬ (w.lastContiguousProcessedSeq ≠ 0 ∧ droppedFrontier d = some c)) := by
  obtain ⟨hroom, heq⟩ | ⟨-, -, heq⟩ | ⟨hfull, e, w, hfind, hw, -, heq⟩ :=
    makeRoomForNewClient_cases h
  · rw [heq]
    simp [hroom]
  · rw [heq] at hok
    simp at hok
  · rw [heq]
    have hec : c ≠ e := by
      rintro rfl
      rw [hc] at hw
      simp at hw
    have hchosen : (∃ (b : Bytes) (v : ClientDedupeWindow),
        d.clientOrder.find? (evictableClient d) = some b ∧ d.clients[b]? = some v ∧
          ¬ (v.lastContiguousProcessedSeq ≠ 0 ∧ droppedFrontier d = some c)) ↔
        ¬ (w.lastContiguousProcessedSeq ≠ 0 ∧ droppedFrontier d = some c) := by
      constructor
      · rintro ⟨b, v, hb, hv, hnot⟩
        rw [hfind, Option.some.injEq] at hb
        subst hb
        rw [hw, Option.some.injEq] at hv
        subst hv
        exact hnot
      · exact fun hnot => ⟨e, w, hfind, hw, hnot⟩
    rw [hchosen]
    have hroom : ¬ d.clients.size < d.maxClientWindows := by omega
    simp only [hroom, false_or]
    by_cases hpos : w.lastContiguousProcessedSeq = 0
    · rw [hpos, retainFrontier_zero]
      change d.evictedFrontiers[c]? ≠ none ↔ _
      simp
    · -- the evicted client has no frontier yet, so its own is pushed onto the queue
      rw [(retainFrontier_retained (h.withoutWindow e) e hpos).others c hec]
      have hnone : d.evictedFrontiers[e]? = none := hsep e w hw
      change (if d.evictedFrontiers[e]? = none ∧ droppedFrontier d = some c then none
        else d.evictedFrontiers[c]?) ≠ none ↔ _
      by_cases hdropped : droppedFrontier d = some c
      · simp [hnone, hdropped, hpos]
      · simp [hdropped]

theorem record_separate_iff (h : Core d) (hsep : Separate d) (c id : Bytes) :
    Separate (record d c id).1 ↔ ¬ RecordSplits d (.record c id) := by
  obtain ⟨w, hc, honly⟩ | ⟨heq, hc, hrefused⟩ | ⟨hid, hc, d', hroom, heq⟩ := record_cases h c id
  · have hnot : ¬ RecordSplits d (.record c id) := by
      rintro ⟨-, hnone, -⟩
      rw [hc] at hnone
      simp at hnone
    exact iff_of_true (honly.separate hsep) hnot
  · have hnot : ¬ RecordSplits d (.record c id) := by
      rintro ⟨hid, -, -, hroom⟩
      obtain ⟨hfull, hfind⟩ := hrefused.resolve_left hid
      rcases hroom with hroom | ⟨e, w, hchosen, -⟩
      · exact hfull hroom
      · rw [hfind] at hchosen
        simp at hchosen
    rw [heq]
    exact iff_of_true hsep hnot
  · have hmade := makeRoom_frontier h hsep hc (by rw [hroom])
    rw [hroom] at hmade
    have hsplit : RecordSplits d (.record c id) ↔ d'.evictedFrontiers[c]? ≠ none := by
      rw [hmade]
      exact ⟨fun hs => hs.2.2, fun hs => ⟨hid, hc, hs⟩⟩
    rw [hsplit, not_not, heq]
    constructor
    · intro hafter
      exact hafter c _ (by rw [addClient_lookup, if_pos rfl])
    · intro hnone a v ha
      by_cases hac : a = c
      · subst hac
        exact hnone
      · rw [← heq] at ha ⊢
        exact (record_bystander h c id hac).separate hsep ha

theorem callStep_separate_iff (h : Core d) (hsep : Separate d) (call : Call) :
    Separate (callStep d call) ↔ ¬ RecordSplits d call := by
  cases call with
  | admitEvent event => exact iff_of_true (hsep.admitEvent h event) not_false
  | settleEvent event outcome =>
    exact iff_of_true ((settleEvent_onlyWindow h event outcome).separate hsep) not_false
  | abandonEvent event =>
    exact iff_of_true ((abandonEvent_onlyWindow h event).separate hsep) not_false
  | admitAndSettle event outcome =>
    exact iff_of_true (hsep.admitAndSettle h event outcome) not_false
  | record client eventId => exact record_separate_iff h hsep client eventId
  | removeClient client =>
    refine iff_of_true ?_ not_false
    intro a w ha
    change (d.clients.erase client)[a]? = some w at ha
    change (d.evictedFrontiers.erase client)[a]? = none
    rw [getElem?_drop] at ha ⊢
    by_cases hac : client = a
    · rw [if_pos hac]
    · rw [if_neg hac] at ha ⊢
      exact hsep a w ha
  | clear =>
    refine iff_of_true ?_ not_false
    intro a w ha
    simp [callStep, clear] at ha

/-!
The representation invariant and the runs that keep it.
-/

/-- The tables of a window agree with each other and stay within bounds. -/
structure WindowRepresented (maxEntries : Nat) (w : ClientDedupeWindow) : Prop where
  order_nodup : w.order.Nodup
  order_mem : ∀ id : Bytes, id ∈ w.order ↔ ∃ r, w.seenIds[id]? = some r
  ids_by_seq : ∀ (seq : Nat) (id : Bytes), w.idsBySeq[seq]? = some id ↔
    seq ≠ 0 ∧ ∃ r : EventRecord, w.seenIds[id]? = some r ∧ r.eventSeq = seq
  entries_le : w.seenIds.size ≤ maxEntries

structure Represented (d : EventDeduplicator) : Prop where
  client_order_nodup : d.clientOrder.Nodup
  client_order_mem : ∀ c : Bytes, c ∈ d.clientOrder ↔ ∃ w, d.clients[c]? = some w
  frontier_order_nodup : d.frontierOrder.Nodup
  frontier_order_mem : ∀ c : Bytes, c ∈ d.frontierOrder ↔ ∃ f, d.evictedFrontiers[c]? = some f
  separate : ∀ c : Bytes, ¬ ((∃ w, d.clients[c]? = some w) ∧ ∃ f, d.evictedFrontiers[c]? = some f)
  windows_le : d.clients.size ≤ d.maxClientWindows
  frontiers_le : d.evictedFrontiers.size ≤ d.maxClientWindows
  windows : ∀ (c : Bytes) (w : ClientDedupeWindow), d.clients[c]? = some w →
    WindowRepresented d.maxEntriesPerClient w

theorem represented_iff (h : Core d) : Represented d ↔ Separate d := by
  constructor
  · intro hrep c w hc
    by_contra hfrontier
    obtain ⟨f, hf⟩ := Option.ne_none_iff_exists'.mp hfrontier
    exact hrep.separate c ⟨⟨w, hc⟩, f, hf⟩
  · intro hsep
    refine ⟨h.clients.nodup, h.clients.mem_iff, h.frontiers.nodup, h.frontiers.mem_iff, ?_,
      h.clients_le, h.frontiers_le, ?_⟩
    · rintro c ⟨⟨w, hw⟩, f, hf⟩
      rw [hsep c w hw] at hf
      simp at hf
    · intro c w hw
      have hinv := h.windows c w hw
      exact ⟨hinv.listing.nodup, hinv.listing.mem_iff, hinv.inverse, hinv.size_le⟩

theorem separate_withLimits (maxEntries maxWindows : Nat) :
    Separate (EventDeduplicator.withLimits maxEntries maxWindows) := by
  intro c w hc
  simp [EventDeduplicator.withLimits] at hc

/-- Every run from an empty deduplicator keeps the representation invariant in
every state, and every pinned window at every step, exactly as long as no
`record` call splits a client into a window and a frontier. -/
theorem run_represented_iff (maxEntries maxWindows : Nat) (calls : List Call) :
    (EveryState callStep Represented (EventDeduplicator.withLimits maxEntries maxWindows) calls ∧
      EveryStep callStep PinnedKept (EventDeduplicator.withLimits maxEntries maxWindows) calls) ↔
    EveryStep callStep (fun d call => ¬ RecordSplits d call)
      (EventDeduplicator.withLimits maxEntries maxWindows) calls := by
  have hcore := core_withLimits maxEntries maxWindows
  have hrun : EveryStep callStep (fun _ _ => True)
      (EventDeduplicator.withLimits maxEntries maxWindows) calls :=
    everyStep_of_forall (fun _ _ => trivial) _ _
  have hkept : EveryStep callStep PinnedKept
      (EventDeduplicator.withLimits maxEntries maxWindows) calls :=
    hrun.of_invariant (fun d call h _ => callStep_core h call)
      (fun d call h _ => callStep_pinnedKept h call) hcore
  have hstates := everyState_iff_everyStep_of
    (fun d call h _ => callStep_core h call)
    (fun d call h _ hrep => (represented_iff (callStep_core h call)).trans
      (callStep_separate_iff h ((represented_iff h).mp hrep) call))
    hcore ((represented_iff hcore).mpr (separate_withLimits _ _)) hrun
  rw [hstates]
  exact and_iff_left hkept

def clientA : Bytes := [65]
def clientB : Bytes := [66]
def firstEventOf (client : Bytes) : Event := ⟨client, 1, [1], none⟩

/-- A client whose window was evicted comes back through `record`. -/
def splittingRun : List Call :=
  [.admitEvent (firstEventOf clientA), .settleEvent (firstEventOf clientA) ⟨true, 1, ""⟩,
    .admitEvent (firstEventOf clientB), .abandonEvent (firstEventOf clientB),
    .record clientA [2]]

/-- With one window, the run leaves the first client with both a live window
and a retained frontier. -/
theorem splittingRun_not_represented :
    ¬ Represented (run callStep (EventDeduplicator.withLimits 4 1) splittingRun) := by
  intro hrep
  refine hrep.separate clientA ⟨Option.isSome_iff_exists.mp ?_, Option.isSome_iff_exists.mp ?_⟩
  · decide +kernel
  · decide +kernel

end Srui.EventDedupe.Representation

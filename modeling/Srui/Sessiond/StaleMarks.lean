import Srui.Sessiond.StaleClients

/-!
What the registry of stale clients holds after it is marked and cleared, and which clients a
publish marks.
-/

namespace Srui.Sessiond.StaleClients

open Std (ExtTreeMap)
open SemanticTree.Transactions SemanticTree.Wire EventDedupe.Windows Sessiond.Outbound Sessiond.Hubs

structure WellFormed (registry : StaleClientRegistry) : Prop where
  nodup : registry.order.Nodup
  tracked : ∀ id, id ∈ registry.order ↔ contains registry id = true

variable {registry : StaleClientRegistry} {ids : Finset Bytes}

theorem WellFormed.clearClient (h : WellFormed registry) (id : Bytes) :
    WellFormed (clearClient registry id) ∧
      ∀ other, contains (StaleClients.clearClient registry id) other = true ↔
        other ≠ id ∧ contains registry other = true := by
  unfold StaleClients.clearClient
  split
  · rename_i hheld
    have hcontains : ∀ other, contains
        ⟨registry.order.filter (· ≠ id), registry.entries.erase id⟩ other = true ↔
        other ≠ id ∧ contains registry other = true := by
      intro other
      unfold contains
      rw [ExtTreeMap.contains_erase, Bool.and_eq_true]
      refine and_congr_left fun _ => ?_
      simp [ne_comm]
    refine ⟨⟨h.nodup.filter _, fun other => ?_⟩, hcontains⟩
    rw [hcontains, List.mem_filter, h.tracked, and_comm]
    simp
  · rename_i hheld
    refine ⟨h, fun other => ?_⟩
    constructor
    · intro hother
      refine ⟨?_, hother⟩
      rintro rfl
      exact hheld hother
    · rintro ⟨-, hother⟩
      exact hother

theorem WellFormed.mark (h : WellFormed registry) (hids : ∀ id ∈ registry.order, id ∈ ids)
    (hfew : ids.card < maxTrackedStaleClients) {id : Bytes} (hid : id ∈ ids) (peakDepth : Nat) :
    WellFormed (mark registry id peakDepth) ∧
      (∀ other ∈ (Outbound.mark registry id peakDepth).order, other ∈ ids) ∧
      ∀ other, contains (Outbound.mark registry id peakDepth) other = true ↔
        other = id ∨ contains registry other = true := by
  have hinsert : ∀ (peak : Nat) (order : List Bytes) (other : Bytes),
      contains ⟨order, registry.entries.insert id peak⟩ other = true ↔
        other = id ∨ contains registry other = true := by
    intro peak order other
    unfold contains
    rw [ExtTreeMap.contains_insert, Bool.or_eq_true]
    refine or_congr_left ?_
    rw [beq_iff_eq, Std.compare_eq_iff_eq]
    exact eq_comm
  unfold Outbound.mark
  cases hentry : registry.entries[id]? with
  | some peak =>
    have hheld : contains registry id = true := by
      unfold contains
      rw [ExtTreeMap.contains_eq_isSome_getElem?, hentry]
      rfl
    refine ⟨⟨h.nodup, fun other => ?_⟩, hids, fun other => hinsert _ _ other⟩
    rw [hinsert, h.tracked]
    constructor
    · exact .inr
    · rintro (rfl | hother)
      · exact hheld
      · exact hother
  | none =>
    have hnew : id ∉ registry.order := by
      rw [h.tracked]
      unfold contains
      rw [ExtTreeMap.contains_eq_isSome_getElem?, hentry]
      simp
    have hnodup : (registry.order ++ [id]).Nodup := by
      rw [List.nodup_append]
      refine ⟨h.nodup, List.nodup_singleton id, ?_⟩
      rintro other hother last hlast rfl
      rw [List.mem_singleton] at hlast
      exact hnew (hlast ▸ hother)
    have hsub : ∀ other ∈ registry.order ++ [id], other ∈ ids := by
      intro other hother
      rcases List.mem_append.mp hother with hold | hlast
      · exact hids other hold
      · rw [List.mem_singleton.mp hlast]
        exact hid
    have hroom : (registry.order ++ [id]).length - maxTrackedStaleClients = 0 := by
      have hle := Finset.card_le_card (s := (registry.order ++ [id]).toFinset) (t := ids)
        fun other hother => hsub other (List.mem_toFinset.mp hother)
      rw [List.toFinset_card_of_nodup hnodup] at hle
      omega
    simp only [hroom, List.take_zero, List.drop_zero, List.foldl_nil]
    refine ⟨⟨hnodup, fun other => ?_⟩, hsub, fun other => hinsert _ _ other⟩
    rw [hinsert, List.mem_append, List.mem_singleton, h.tracked, or_comm]

theorem WellFormed.markAll (h : WellFormed registry) (hids : ∀ id ∈ registry.order, id ∈ ids)
    (hfew : ids.card < maxTrackedStaleClients) (staleMarked : List (Bytes × Nat))
    (hmarked : ∀ entry ∈ staleMarked, entry.1 ∈ ids) :
    let marked :=
      staleMarked.foldl (fun registry entry => Outbound.mark registry entry.1 entry.2) registry
    WellFormed marked ∧ (∀ id ∈ marked.order, id ∈ ids) ∧
      ∀ other, contains marked other = true ↔
        other ∈ staleMarked.map Prod.fst ∨ contains registry other = true := by
  induction staleMarked generalizing registry with
  | nil => exact ⟨h, hids, by simp⟩
  | cons entry rest ih =>
    obtain ⟨hmark, hmarkIds, hheld⟩ :=
      h.mark hids hfew (hmarked entry List.mem_cons_self) entry.2
    obtain ⟨hrest, hrestIds, hrestHeld⟩ := ih hmark hmarkIds fun other hother =>
      hmarked other (List.mem_cons_of_mem entry hother)
    refine ⟨hrest, hrestIds, fun other => ?_⟩
    rw [List.foldl_cons, hrestHeld, hheld, List.map_cons, List.mem_cons]
    tauto

variable {frameLen : WireTransaction → Nat} {tx : WireTransaction}

theorem withTail_fields (state : SubscriberState) :
    (withTail state).staleReason = state.staleReason ∧
      (withTail state).isClosed = state.isClosed := by
  unfold withTail
  split <;> exact ⟨rfl, rfl⟩

/-- A queue that takes the transaction stays open; one that overflows is closed with a reason. -/
structure Takes (state : SubscriberState)
    (result : SubscriberState × Except OutboundRecvError Bool) : Prop where
  grown : ∃ grown, result.2 = .ok grown
  staleReason : result.1.staleReason = state.staleReason
  isClosed : result.1.isClosed = state.isClosed

structure Overflows (result : SubscriberState × Except OutboundRecvError Bool) : Prop where
  lagged : ∃ reason, result.2 = .error (.lagged reason)
  staleReason : result.1.staleReason.isSome = true
  isClosed : result.1.isClosed = true

theorem push_cases (state : SubscriberState) (tx : WireTransaction)
    (incoming : Option Transaction) :
    Takes state (push state tx incoming) ∨ Overflows (push state tx incoming) := by
  unfold push
  split
  · exact .inr ⟨⟨_, rfl⟩, rfl, rfl⟩
  · exact .inl ⟨⟨true, rfl⟩, rfl, rfl⟩

theorem tryPushOrAbsorb_cases (frameLen : WireTransaction → Nat) (tx : WireTransaction)
    {state : SubscriberState} (hopen : state.isClosed = false) (incoming : Option Transaction) :
    Takes state (tryPushOrAbsorb state frameLen tx incoming) ∨
      Overflows (tryPushOrAbsorb state frameLen tx incoming) := by
  have htail : ∀ incoming, Takes state (push (withTail state) tx incoming) ∨
      Overflows (push (withTail state) tx incoming) := by
    intro incoming
    obtain ⟨hstale, hclosed⟩ := withTail_fields state
    rcases push_cases (withTail state) tx incoming with htakes | hoverflows
    · exact .inl ⟨htakes.grown, htakes.staleReason.trans hstale, htakes.isClosed.trans hclosed⟩
    · exact .inr hoverflows
  unfold tryPushOrAbsorb
  rw [hopen, if_neg Bool.false_ne_true]
  cases incoming with
  | none => exact push_cases state tx none
  | some commit =>
    simp only
    split
    · split
      · exact .inl ⟨⟨false, rfl⟩, (withTail_fields state).1, (withTail_fields state).2⟩
      · exact htail _
    · exact htail _

theorem offer_cases (frameLen : WireTransaction → Nat) (tx : WireTransaction)
    {state : SubscriberState} (hstale : state.staleReason = none) :
    Takes state (offer frameLen tx state) ∨
      state.isClosed = false ∧ Overflows (offer frameLen tx state) ∨
      state.isClosed = true ∧ offer frameLen tx state = (state, .error .closed) := by
  unfold offer
  cases hclosed : state.isClosed with
  | false =>
    rcases tryPushOrAbsorb_cases frameLen tx hclosed
      (if hasUnsentTail state then toDomain tx else none) with htakes | hoverflows
    · exact .inl htakes
    · exact .inr (.inl ⟨rfl, hoverflows⟩)
  | true =>
    refine .inr (.inr ⟨rfl, ?_⟩)
    simp only
    unfold tryPushOrAbsorb
    rw [if_pos hclosed, hstale]

/-- A subscriber whose queue answers a publish that it has overflowed. -/
def Lags (frameLen : WireTransaction → Nat) (tx : WireTransaction)
    (states : Nat → SubscriberState) (sub : Subscriber) : Prop :=
  sub.notifyClosed = false ∧
    ∃ reason, (offer frameLen tx (states sub.handle)).2 = .error (.lagged reason)

structure Published (frameLen : WireTransaction → Nat) (tx : WireTransaction)
    (subs : List Subscriber) (before after : PublishPass) : Prop where
  states : ∀ handle, after.states handle = before.states handle ∨ ∃ sub ∈ subs,
    sub.handle = handle ∧ sub.notifyClosed = false ∧
      after.states handle = (offer frameLen tx (before.states handle)).1
  kept : ∀ sub ∈ after.kept, sub ∈ before.kept ∨ sub ∈ subs ∧
    ∃ grown, (offer frameLen tx (before.states sub.handle)).2 = .ok grown
  marked : ∀ id, id ∈ after.staleMarked.map Prod.fst ↔ id ∈ before.staleMarked.map Prod.fst ∨
    ∃ sub ∈ subs, sub.clientInstanceId = id ∧ Lags frameLen tx before.states sub
  lagged : ∀ sub ∈ subs, Lags frameLen tx before.states sub →
    after.states sub.handle = (offer frameLen tx (before.states sub.handle)).1

theorem publishTo_published (frameLen : WireTransaction → Nat) (tx : WireTransaction)
    (pass : PublishPass) (sub : Subscriber) :
    Published frameLen tx [sub] pass (publishTo frameLen tx pass sub) := by
  have hsingle : ∀ P : Subscriber → Prop, (∃ other ∈ [sub], P other) ↔ P sub := by simp
  cases hlive : sub.notifyClosed with
  | true =>
    have hkept : publishTo frameLen tx pass sub = pass := by
      unfold publishTo
      rw [if_pos hlive]
    rw [hkept]
    refine ⟨fun _ => .inl rfl, fun other hother => .inl hother, fun id => ?_, ?_⟩
    · rw [hsingle]
      unfold Lags
      simp [hlive]
    · rintro other hother ⟨hopen, -⟩
      rw [List.mem_singleton.mp hother, hlive] at hopen
      exact absurd hopen (by simp)
  | false =>
    obtain ⟨hstates, -⟩ := publishTo_live frameLen tx pass hlive
    refine ⟨fun handle => ?_, ?_, fun id => ?_, ?_⟩
    · rw [hstates]
      rcases eq_or_ne handle sub.handle with rfl | hne
      · refine .inr ⟨sub, List.mem_singleton_self sub, rfl, hlive, ?_⟩
        rw [Function.update_self]
      · exact .inl (Function.update_of_ne hne _ _)
    · intro other hother
      unfold publishTo at hother
      rw [hlive, if_neg Bool.false_ne_true] at hother
      split at hother
      · rename_i state grown hoffer
        rcases List.mem_append.mp hother with hold | hnew
        · exact .inl hold
        · refine .inr ⟨hnew, grown, ?_⟩
          rw [List.mem_singleton.mp hnew, hoffer]
      · exact .inl hother
      · exact .inl hother
    · rw [hsingle]
      unfold publishTo Lags
      rw [hlive, if_neg Bool.false_ne_true]
      split
      · rename_i state grown hoffer
        simp [hoffer]
      · rename_i state reason hoffer
        simp [hoffer, eq_comm]
      · rename_i state hoffer
        simp [hoffer]
    · rintro other hother -
      rw [List.mem_singleton.mp hother, hstates, Function.update_self]

theorem publishAll_published {subs : List Subscriber}
    (hdistinct : (subs.map Subscriber.handle).Nodup) (pass : PublishPass) :
    Published frameLen tx subs pass (subs.foldl (publishTo frameLen tx) pass) := by
  induction subs generalizing pass with
  | nil => exact ⟨fun _ => .inl rfl, fun _ h => .inl h, by simp, by simp⟩
  | cons sub rest ih =>
    rw [List.map_cons, List.nodup_cons] at hdistinct
    have hfirst := publishTo_published frameLen tx pass sub
    have hrest := ih hdistinct.2 (publishTo frameLen tx pass sub)
    have hsame : ∀ other ∈ rest,
        (publishTo frameLen tx pass sub).states other.handle = pass.states other.handle := by
      intro other hother
      refine publishTo_other pass sub fun heq => hdistinct.1 ?_
      rw [heq]
      exact List.mem_map_of_mem hother
    have hlags : ∀ other ∈ rest, Lags frameLen tx (publishTo frameLen tx pass sub).states other ↔
        Lags frameLen tx pass.states other := by
      intro other hother
      unfold Lags
      rw [hsame other hother]
    rw [List.foldl_cons]
    constructor
    · intro handle
      rcases hrest.states handle with hkept | ⟨other, hother, rfl, hlive, hoffer⟩
      · rw [hkept]
        rcases hfirst.states handle with hfirst | ⟨other, hother, hhandle, hlive, hoffer⟩
        · exact .inl hfirst
        · refine .inr ⟨other, ?_, hhandle, hlive, hoffer⟩
          rw [List.mem_singleton.mp hother]
          exact List.mem_cons_self
      · refine .inr ⟨other, List.mem_cons_of_mem sub hother, rfl, hlive, ?_⟩
        rw [hoffer, hsame other hother]
    · intro other hother
      rcases hrest.kept other hother with hkept | ⟨hmem, hgrown⟩
      · rcases hfirst.kept other hkept with hold | ⟨hmem, hgrown⟩
        · exact .inl hold
        · refine .inr ⟨?_, hgrown⟩
          rw [List.mem_singleton.mp hmem]
          exact List.mem_cons_self
      · rw [hsame other hmem] at hgrown
        exact .inr ⟨List.mem_cons_of_mem sub hmem, hgrown⟩
    · intro id
      rw [hrest.marked, hfirst.marked, or_assoc]
      refine or_congr_right ?_
      constructor
      · rintro (⟨other, hother, hid, hlag⟩ | ⟨other, hother, hid, hlag⟩)
        · refine ⟨other, ?_, hid, hlag⟩
          rw [List.mem_singleton.mp hother]
          exact List.mem_cons_self
        · exact ⟨other, List.mem_cons_of_mem sub hother, hid, (hlags other hother).mp hlag⟩
      · rintro ⟨other, hother, hid, hlag⟩
        rcases List.mem_cons.mp hother with rfl | hmem
        · exact .inl ⟨other, List.mem_singleton_self other, hid, hlag⟩
        · exact .inr ⟨other, hmem, hid, (hlags other hmem).mpr hlag⟩
    · intro other hother hlag
      rcases List.mem_cons.mp hother with rfl | hmem
      · have hother : ∀ next ∈ rest, next.handle ≠ other.handle := by
          intro next hnext heq
          exact hdistinct.1 (heq ▸ List.mem_map_of_mem hnext)
        rw [publishAll_other hother]
        exact hfirst.lagged other (List.mem_singleton_self other) hlag
      · rw [hrest.lagged other hmem ((hlags other hmem).mpr hlag), hsame other hmem]

/-- A new subscription: its queue is open, and all the others are as they were. -/
structure Subscribed (hub hub' : OutboundHub) (clientInstanceId : Bytes) : Prop where
  nextHandle : hub'.nextHandle = hub.nextHandle + 1
  isClosed : hub'.isClosed = hub.isClosed
  staleClients : hub'.staleClients = hub.staleClients
  states : ∀ handle < hub.nextHandle, hub'.states handle = hub.states handle
  staleReason : (hub'.states hub.nextHandle).staleReason = none
  opened : (hub'.states hub.nextHandle).isClosed = false
  subscribers : ∀ sub ∈ hub'.subscribers, sub ∈ hub.subscribers ∨
    sub.handle = hub.nextHandle ∧ sub.clientInstanceId = clientInstanceId

theorem subscribe_cases {hub : OutboundHub} (hopen : hub.isClosed = false) (id : Bytes)
    (capacity maxOps maxFrameSize : Nat) :
    (∃ e, subscribe hub id capacity maxOps maxFrameSize = .error e ∧ capacity = 0) ∨
      ∃ hub', subscribe hub id capacity maxOps maxFrameSize = .ok (hub', hub.nextHandle) ∧
        Subscribed hub hub' id ∧ capacity ≠ 0 := by
  unfold subscribe
  by_cases hcapacity : capacity = 0
  · rw [if_pos hcapacity]
    exact .inl ⟨_, rfl, hcapacity⟩
  rw [if_neg hcapacity, if_neg (by simp [hopen])]
  refine .inr ⟨_, rfl, ⟨rfl, rfl, rfl, ?_, ?_, ?_, ?_⟩, hcapacity⟩
  · intro handle hlt
    exact Function.update_of_ne (Nat.ne_of_lt hlt) _ _
  · simp
  · simp
  · intro sub hsub
    rcases List.mem_append.mp hsub with hold | hnew
    · exact .inl (List.mem_of_mem_filter hold)
    · rw [List.mem_singleton.mp hnew]
      exact .inr ⟨rfl, rfl⟩

end Srui.Sessiond.StaleClients

import Srui.EventDedupe.Representation

/-!
Delivery guarantees over runs of the sequence-aware calls: a settled event is
never admitted afresh, and the frontier is the longest settled prefix.
-/

namespace Srui.EventDedupe.Delivery

open Std Basic.Machine Basic.Runs EventDedupe.Deduplicators EventDedupe.Representation
open EventDedupe.WindowInvariant EventDedupe.Windows

structure Settlement where
  client : Bytes
  eventId : Bytes
  eventSeq : Nat
  eventType : EventType
  outcome : EventOutcomeRecord
deriving DecidableEq, Repr

/-- The settlement a call of `settle_event` makes. -/
def settlementOf (d : EventDeduplicator) (event : Event) (outcome : EventOutcomeRecord) :
    Option Settlement :=
  if event.eventId = [] then none
  else
    match d.clients[event.clientInstanceId]? with
    | none => none
    | some w =>
      match w.seenIds[event.eventId]? with
      | some (.inFlight eventSeq eventType) =>
        some ⟨event.clientInstanceId, event.eventId, eventSeq, eventType, outcome⟩
      | _ => none

/-- Whether an answer of `admit_event` makes `admit_and_settle` go on to settle. -/
def goesOn : Except EventSequenceError RecordOutcome → Bool
  | .ok (.fresh _) => true
  | .ok (.pending _) => true
  | _ => false

def settles (d : EventDeduplicator) : Call → Option Settlement
  | .settleEvent event outcome => settlementOf d event outcome
  | .admitAndSettle event outcome =>
    if goesOn (admitEvent d event).2 then settlementOf (admitEvent d event).1 event outcome
    else none
  | _ => none

def settlements (d : EventDeduplicator) : List Call → List Settlement
  | [] => []
  | call :: rest => (settles d call).toList ++ settlements (callStep d call) rest

variable {d d' : EventDeduplicator}

variable {event : Event} {st : Settlement} {outcome : EventOutcomeRecord}

theorem settlementOf_some
    (h : settlementOf d event outcome = some st) :
    event.eventId ≠ [] ∧ ∃ w : ClientDedupeWindow, d.clients[event.clientInstanceId]? = some w ∧
      w.seenIds[event.eventId]? = some (.inFlight st.eventSeq st.eventType) ∧
      st.client = event.clientInstanceId ∧ st.eventId = event.eventId ∧ st.outcome = outcome := by
  unfold settlementOf at h
  split at h
  · simp at h
  · rename_i hid
    cases hc : d.clients[event.clientInstanceId]? with
    | none => simp [hc] at h
    | some w =>
      rw [hc] at h
      simp only at h
      split at h
      · rename_i seq ty hrecord
        rw [Option.some.injEq] at h
        subst h
        exact ⟨hid, w, rfl, hrecord, rfl, rfl, rfl⟩
      · simp at h

variable {w : ClientDedupeWindow}

theorem settlementOf_none
    (h : settlementOf d event outcome = none) (hid : event.eventId ≠ [])
    (hc : d.clients[event.clientInstanceId]? = some w) (seq : Nat) (ty : EventType) :
    w.seenIds[event.eventId]? ≠ some (.inFlight seq ty) := by
  intro hrecord
  simp [settlementOf, hid, hc, hrecord] at h

theorem admitAndSettle_goesOn (outcome : EventOutcomeRecord)
    (h : goesOn (admitEvent d event).2 = true) :
    (admitAndSettle d event outcome).1 = (settleEvent (admitEvent d event).1 event outcome).1 := by
  unfold admitAndSettle
  split <;> rename_i heq <;> rw [heq] at h ⊢
  · simp [goesOn] at h
  · simp [goesOn] at h

theorem admitAndSettle_stops (outcome : EventOutcomeRecord)
    (h : goesOn (admitEvent d event).2 = false) :
    (admitAndSettle d event outcome).1 = (admitEvent d event).1 := by
  unfold admitAndSettle
  split
  · rename_i heq
    rw [heq]
  · rename_i heq
    rw [heq]
  · rename_i outcome' hnot heq
    rw [heq] at h
    cases outcome' with
    | fresh _ => simp [goesOn] at h
    | pending _ => simp [goesOn] at h
    | duplicate prior seq => exact absurd rfl (hnot prior seq)

theorem settleEvent_settled (h : Core d) (hst : settlementOf d event outcome = some st) :
    ∃ w w' : ClientDedupeWindow, d.clients[st.client]? = some w ∧
      (settleEvent d event outcome).1.clients[st.client]? = some w' ∧
      w.seenIds[st.eventId]? = some (.inFlight st.eventSeq st.eventType) ∧
      SettledAs w st.eventId st.eventSeq st.eventType st.outcome w' := by
  obtain ⟨hid, w, hc, hrecord, hclient, heventId, houtcome⟩ := settlementOf_some hst
  have honly := settleEvent_onlyWindow h event outcome
  refine ⟨w, (settle w event.eventId outcome).1, ?_, ?_, ?_, ?_⟩
  · rw [hclient, hc]
  · rw [hclient, honly.own, hc, Option.map_some, whenNamed, if_neg hid]
  · rw [heventId, hrecord]
  · rw [heventId, houtcome]
    exact (settle_inFlight (h.windows _ _ hc) outcome hrecord).1

variable {call : Call}

theorem settles_some (h : Core d) (hst : settles d call = some st) :
    ∃ (e : EventDeduplicator) (event : Event) (outcome : EventOutcomeRecord), Core e ∧
      settlementOf e event outcome = some st ∧ callStep d call = (settleEvent e event outcome).1 := by
  cases call with
  | settleEvent event outcome => exact ⟨d, event, outcome, h, hst, rfl⟩
  | admitAndSettle event outcome =>
    simp only [settles] at hst
    split at hst
    · rename_i hgoes
      exact ⟨_, event, outcome, h.admitEvent event, hst, admitAndSettle_goesOn outcome hgoes⟩
    · simp at hst
  | admitEvent event | abandonEvent event | record client eventId | removeClient client | clear =>
    simp [settles] at hst

/-!
At most once. A settled sequence is refused by the window while there is one,
and by the retained frontier while there is none.
-/

def Refuses (c : Bytes) (seq : Nat) (d : EventDeduplicator) : Prop :=
  (∃ w : ClientDedupeWindow, d.clients[c]? = some w ∧ Covered w seq) ∨
    (d.clients[c]? = none ∧ ∃ f : Nat, d.evictedFrontiers[c]? = some f ∧ seq ≤ f)

/-- The client is kept, as a live window or as a retained frontier. -/
def Kept (c : Bytes) (d : EventDeduplicator) : Prop :=
  (∃ w, d.clients[c]? = some w) ∨ ∃ f, d.evictedFrontiers[c]? = some f

variable {c id : Bytes} {change : ClientDedupeWindow → ClientDedupeWindow} {seq maxEntries : Nat}

theorem Refuses.onlyWindow (h : Refuses c seq d) (hcore : Core d)
    (honly : OnlyWindow d c change d')
    (hchange : ∀ w, WindowInv d.maxEntriesPerClient w → Covered w seq → Covered (change w) seq) :
    Refuses c seq d' := by
  rcases h with ⟨w, hc, hcovered⟩ | ⟨hc, f, hf, hle⟩
  · refine Or.inl ⟨change w, ?_, hchange w (hcore.windows c w hc) hcovered⟩
    rw [honly.own, hc, Option.map_some]
  · refine Or.inr ⟨?_, f, ?_, hle⟩
    · rw [honly.own, hc, Option.map_none]
    · rw [honly.frontiers, hf]

theorem Refuses.bystander (h : Refuses c seq d) (hpos : 0 < seq)
    (hby : Bystander d d' c) (hkept : Kept c d') : Refuses c seq d' := by
  obtain ⟨hclients, hfrontiers⟩ | ⟨w, hw, hpinned, hnone, hretained⟩ := hby
  · rcases h with ⟨w, hc, hcovered⟩ | ⟨hc, f, hf, hle⟩
    · exact Or.inl ⟨w, by rw [hclients, hc], hcovered⟩
    · refine Or.inr ⟨by rw [hclients, hc], ?_⟩
      rcases hfrontiers with heq | heq
      · exact ⟨f, by rw [heq, hf], hle⟩
      · rcases hkept with ⟨w, hw⟩ | ⟨g, hg⟩
        · rw [hclients, hc] at hw
          simp at hw
        · rw [heq] at hg
          simp at hg
  · -- an evicted window was not pinned, so its frontier alone covers the sequence
    rcases h with ⟨w', hc, hcovered⟩ | ⟨hc, -⟩
    · rw [hw, Option.some.injEq] at hc
      subst hc
      rcases hcovered with hle | hahead
      · exact Or.inr ⟨hnone, _, hretained (by omega), hle⟩
      · rw [not_pinned_ahead hpinned] at hahead
        simp at hahead
    · rw [hw] at hc
      simp at hc

theorem whenNamed_covered (h : Covered (change w) seq ↔ Covered w seq) :
    Covered (whenNamed id change w) seq ↔ Covered w seq := by
  unfold whenNamed
  split
  · rfl
  · exact h

theorem settle_covered (h : WindowInv maxEntries w)
    (id : Bytes) (outcome : EventOutcomeRecord) (hcovered : Covered w seq) :
    Covered (settle w id outcome).1 seq := by
  by_cases hid : ∃ (s : Nat) (ty : EventType), w.seenIds[id]? = some (.inFlight s ty)
  · obtain ⟨s, ty, hid⟩ := hid
    exact ((settle_inFlight h outcome hid).1.covered_iff seq).mpr (Or.inl hcovered)
  · simp only [not_exists] at hid
    rw [settle_not_inFlight outcome hid]
    exact hcovered

theorem Refuses.settleEvent (h : Refuses c seq d) (hcore : Core d)
    (hpos : 0 < seq) (event : Event) (outcome : EventOutcomeRecord)
    (hkept : Kept c (settleEvent d event outcome).1) :
    Refuses c seq (settleEvent d event outcome).1 := by
  have honly := settleEvent_onlyWindow hcore event outcome
  by_cases hown : c = event.clientInstanceId
  · subst hown
    refine h.onlyWindow hcore honly fun w hw hcovered => ?_
    unfold whenNamed
    split
    · exact hcovered
    · exact settle_covered hw _ _ hcovered
  · exact h.bystander hpos (honly.bystander hown) hkept

theorem restartedWindow_covered (hcore : Core d) (event : Event) (seq : Nat) :
    Covered (restartedWindow d event) seq ↔
      seq ≤ restartFrontier d event.clientInstanceId := by
  unfold restartedWindow
  rw [admit_covered (windowInv_startingAt _ _) hcore.entries_pos]
  simp [Covered, ClientDedupeWindow.startingAt]

theorem Refuses.admitEvent (h : Refuses c seq d) (hcore : Core d)
    (hpos : 0 < seq) (event : Event) (hkept : Kept c (admitEvent d event).1) :
    Refuses c seq (admitEvent d event).1 := by
  by_cases hown : c = event.clientInstanceId
  · subst hown
    obtain ⟨-, heq⟩ | ⟨-, w, hc, -⟩ | ⟨-, hc, e, -, heq⟩ | ⟨-, hc, e, -, -, heq⟩ :=
      admitEvent_cases hcore event
    · rw [heq]
      exact h
    · refine h.onlyWindow hcore (admitEvent_onlyWindow hcore hc) fun w hw hcovered => ?_
      exact (whenNamed_covered (admit_covered hw hcore.entries_pos _ _ _ _)).mpr hcovered
    · rcases h with ⟨w, hw, -⟩ | ⟨-, f, hf, hle⟩
      · rw [hc] at hw
        simp at hw
      · -- a refused admission puts the frontier back
        have hrestart : restartFrontier d event.clientInstanceId = f := by
          rw [restartFrontier, hf, Option.getD_some]
        rw [heq, hrestart]
        refine Or.inr ⟨by rw [retainFrontier_clients]; exact hc, f, ?_, hle⟩
        exact (retainFrontier_retained (hcore.withoutFrontier _) _ (by omega)).own
    · rcases h with ⟨w, hw, -⟩ | ⟨-, f, hf, hle⟩
      · rw [hc] at hw
        simp at hw
      · rw [heq]
        refine Or.inl ⟨_, by rw [addClient_lookup, if_pos rfl], ?_⟩
        rw [restartedWindow_covered hcore, restartFrontier, hf, Option.getD_some]
        exact hle
  · exact h.bystander hpos (admitEvent_bystander hcore event hown) hkept

theorem settleEvent_kept (hcore : Core d) (event : Event)
    (outcome : EventOutcomeRecord) : Kept c (settleEvent d event outcome).1 → Kept c d := by
  have honly := settleEvent_onlyWindow hcore event outcome
  rintro (⟨w, hw⟩ | ⟨f, hf⟩)
  · left
    by_cases hown : c = event.clientInstanceId
    · subst hown
      rw [honly.own, Option.map_eq_some_iff] at hw
      obtain ⟨w', hw', -⟩ := hw
      exact ⟨w', hw'⟩
    · exact ⟨w, by rw [← honly.others c hown, hw]⟩
  · exact Or.inr ⟨f, by rw [← honly.frontiers, hf]⟩

theorem Refuses.callStep (h : Refuses c seq d) (hcore : Core d)
    (hpos : 0 < seq) (hdelivery : call.isDelivery = true)
    (hkept : Kept c (callStep d call)) : Refuses c seq (callStep d call) := by
  cases call with
  | admitEvent event => exact h.admitEvent hcore hpos event hkept
  | settleEvent event outcome => exact h.settleEvent hcore hpos event outcome hkept
  | abandonEvent event =>
    have honly := abandonEvent_onlyWindow hcore event
    by_cases hown : c = event.clientInstanceId
    · subst hown
      refine h.onlyWindow hcore honly fun w _ hcovered => ?_
      exact (whenNamed_covered (abandon_covered w _ seq)).mpr hcovered
    · exact h.bystander hpos (honly.bystander hown) hkept
  | admitAndSettle event outcome =>
    change Kept c (admitAndSettle d event outcome).1 at hkept
    change Refuses c seq (admitAndSettle d event outcome).1
    rcases admitAndSettle_eq d event outcome with heq | heq
    · rw [heq] at hkept ⊢
      exact h.admitEvent hcore hpos event hkept
    · rw [heq] at hkept ⊢
      have hmiddle := settleEvent_kept (hcore.admitEvent event) event outcome hkept
      exact (h.admitEvent hcore hpos event hmiddle).settleEvent (hcore.admitEvent event) hpos
        event outcome hkept
  | record client eventId | removeClient client | clear => simp [Call.isDelivery] at hdelivery

theorem Refuses.not_fresh
    (h : Refuses event.clientInstanceId event.eventSeq d) (hcore : Core d) (f : Nat) :
    (Deduplicators.admitEvent d event).2 ≠ .ok (.fresh f) := by
  obtain ⟨-, heq⟩ | ⟨-, w, hc, heq⟩ | ⟨-, -, e, -, heq⟩ | ⟨-, hc, e, -, hok, heq⟩ :=
    admitEvent_cases hcore event
  · rw [heq]
    simp
  · rw [heq]
    rcases h with ⟨w', hw', hcovered⟩ | ⟨hnone, -⟩
    · rw [hc, Option.some.injEq] at hw'
      subst hw'
      exact admit_not_fresh_of_covered (hcore.windows _ _ hc) hcore.entries_pos _ _ hcovered f
    · rw [hc] at hnone
      simp at hnone
  · rw [heq]
    simp
  · exfalso
    rcases h with ⟨w', hw', -⟩ | ⟨-, g, hg, hle⟩
    · rw [hc] at hw'
      simp at hw'
    · have habove := hok.above
      change restartFrontier d event.clientInstanceId < event.eventSeq at habove
      rw [restartFrontier, hg, Option.getD_some] at habove
      omega

/-!
The settled record of an identity does not change while the window holds it.
-/

def Records (c id : Bytes) (r : EventRecord) (d : EventDeduplicator) : Prop :=
  ∃ w : ClientDedupeWindow, d.clients[c]? = some w ∧ w.seenIds[id]? = some r

/-- The client's window holds the identity. -/
def Holds (c id : Bytes) (d : EventDeduplicator) : Prop := ∃ r, Records c id r d

theorem records_held
    (h : (d.clients[c]?.bind fun w => w.seenIds[id]?).isSome = true) : Holds c id d := by
  obtain ⟨r, hr⟩ := Option.isSome_iff_exists.mp h
  obtain ⟨w, hw, hrecord⟩ := Option.bind_eq_some_iff.mp hr
  exact ⟨r, w, hw, hrecord⟩

def KeepsSettled (maxEntries : Nat) (change : ClientDedupeWindow → ClientDedupeWindow) : Prop :=
  ∀ (w : ClientDedupeWindow) (id : Bytes) (r q : EventRecord), WindowInv maxEntries w →
    r.isInFlight = false → w.seenIds[id]? = some r → (change w).seenIds[id]? = some q → q = r

theorem whenNamed_keepsSettled (h : KeepsSettled maxEntries change) :
    KeepsSettled maxEntries (whenNamed id change) := by
  unfold whenNamed
  split
  · intro w a r q _ _ hr hq
    rw [hr, Option.some.injEq] at hq
    exact hq.symm
  · exact h

theorem admit_keepsSettled (hpos : 1 ≤ maxEntries) (id : Bytes) (seq : Nat)
    (ty : EventType) :
    KeepsSettled maxEntries fun w => (admitToWindow w id seq ty maxEntries).1 := by
  intro w a r q hw _ hr hq
  have hsame : w.seenIds[a]? = some q → q = r := by
    intro hq
    rw [hr, Option.some.injEq] at hq
    exact hq.symm
  obtain ⟨_, -, heq⟩ | ⟨-, -, e, -, heq⟩ | ⟨hok, heq⟩ := admit_cases hw hpos id seq ty
  · simp only [heq] at hq
    exact hsame hq
  · simp only [heq] at hq
    exact hsame hq
  · simp only [heq] at hq
    have hne : id ≠ a := by
      rintro rfl
      rw [hok.fresh] at hr
      simp at hr
    rw [fileInFlight_lookup, if_neg hne] at hq
    exact hsame ((makeSpace_spaceMade _ hw).kept a q hq)

theorem settle_keepsSettled (id : Bytes) (outcome : EventOutcomeRecord) :
    KeepsSettled maxEntries fun w => (settle w id outcome).1 := by
  intro w a r q hw hsettled hr hq
  have hsame : w.seenIds[a]? = some q → q = r := by
    intro hq
    rw [hr, Option.some.injEq] at hq
    exact hq.symm
  by_cases hid : ∃ (s : Nat) (ty : EventType), w.seenIds[id]? = some (.inFlight s ty)
  · obtain ⟨s, ty, hid⟩ := hid
    have hne : id ≠ a := by
      rintro rfl
      rw [hid, Option.some.injEq] at hr
      rw [← hr] at hsettled
      simp [EventRecord.isInFlight] at hsettled
    simp only [(settle_inFlight hw outcome hid).1.lookup, if_neg hne] at hq
    exact hsame hq
  · simp only [not_exists] at hid
    simp only [settle_not_inFlight outcome hid] at hq
    exact hsame hq

theorem abandon_keepsSettled (id : Bytes) :
    KeepsSettled maxEntries fun w => abandon w id := by
  intro w a r q _ _ hr hq
  simp only [abandon] at hq
  split at hq
  · simp only [Srui.Basic.FiniteMaps.getElem?_drop] at hq
    split at hq
    · simp at hq
    · rw [hr, Option.some.injEq] at hq
      exact hq.symm
  · rw [hr, Option.some.injEq] at hq
    exact hq.symm

variable {r : EventRecord}

theorem Records.onlyWindow (h : Records c id r d) (hcore : Core d)
    (hsettled : r.isInFlight = false) (honly : OnlyWindow d c change d')
    (hchange : KeepsSettled d.maxEntriesPerClient change) (hholds : Holds c id d') :
    Records c id r d' := by
  obtain ⟨w, hc, hr⟩ := h
  obtain ⟨q, w', hw', hq⟩ := hholds
  rw [honly.own, hc, Option.map_some, Option.some.injEq] at hw'
  subst hw'
  rw [hchange w id r q (hcore.windows c w hc) hsettled hr hq] at hq
  exact ⟨change w, by rw [honly.own, hc, Option.map_some], hq⟩

theorem Records.bystander (h : Records c id r d)
    (hby : Bystander d d' c) (hholds : Holds c id d') : Records c id r d' := by
  obtain ⟨w, hc, hr⟩ := h
  obtain ⟨hclients, -⟩ | ⟨-, -, -, hnone, -⟩ := hby
  · exact ⟨w, by rw [hclients, hc], hr⟩
  · obtain ⟨q, w', hw', -⟩ := hholds
    rw [hnone] at hw'
    simp at hw'

theorem Records.admitEvent (h : Records c id r d) (hcore : Core d)
    (hsettled : r.isInFlight = false) (event : Event)
    (hholds : Holds c id (admitEvent d event).1) : Records c id r (admitEvent d event).1 := by
  by_cases hown : c = event.clientInstanceId
  · subst hown
    obtain ⟨w, hc, hr⟩ := h
    exact Records.onlyWindow ⟨w, hc, hr⟩ hcore hsettled (admitEvent_onlyWindow hcore hc)
      (whenNamed_keepsSettled (admit_keepsSettled hcore.entries_pos _ _ _)) hholds
  · exact h.bystander (admitEvent_bystander hcore event hown) hholds

theorem Records.settleEvent (h : Records c id r d)
    (hcore : Core d) (hsettled : r.isInFlight = false) (event : Event)
    (outcome : EventOutcomeRecord) (hholds : Holds c id (settleEvent d event outcome).1) :
    Records c id r (settleEvent d event outcome).1 := by
  have honly := settleEvent_onlyWindow hcore event outcome
  by_cases hown : c = event.clientInstanceId
  · subst hown
    exact h.onlyWindow hcore hsettled honly
      (whenNamed_keepsSettled (settle_keepsSettled _ _)) hholds
  · exact h.bystander (honly.bystander hown) hholds

theorem settle_lookup_none {a : Bytes} (hw : WindowInv maxEntries w) (ha : w.seenIds[a]? = none) :
    (settle w id outcome).1.seenIds[a]? = none := by
  by_cases hid : ∃ (s : Nat) (ty : EventType), w.seenIds[id]? = some (.inFlight s ty)
  · obtain ⟨s, ty, hid⟩ := hid
    have hne : id ≠ a := by
      rintro rfl
      rw [hid] at ha
      simp at ha
    rw [(settle_inFlight hw outcome hid).1.lookup, if_neg hne, ha]
  · simp only [not_exists] at hid
    rw [settle_not_inFlight outcome hid, ha]

theorem settleEvent_holds (hcore : Core d) (event : Event)
    (outcome : EventOutcomeRecord) (hholds : Holds c id (settleEvent d event outcome).1) :
    Holds c id d := by
  have honly := settleEvent_onlyWindow hcore event outcome
  obtain ⟨q, w', hw', hq⟩ := hholds
  by_cases hown : c = event.clientInstanceId
  · subst hown
    rw [honly.own, Option.map_eq_some_iff] at hw'
    obtain ⟨w, hw, rfl⟩ := hw'
    have hkeeps : ∃ r, w.seenIds[id]? = some r := by
      by_contra hnone
      rw [← Option.isSome_iff_exists, Option.not_isSome_iff_eq_none] at hnone
      unfold whenNamed at hq
      split at hq
      · rw [hnone] at hq
        simp at hq
      · simp only [settle_lookup_none (hcore.windows _ _ hw) hnone] at hq
        simp at hq
    obtain ⟨r, hr⟩ := hkeeps
    exact ⟨r, w, hw, hr⟩
  · exact ⟨q, w', by rw [← honly.others c hown, hw'], hq⟩

theorem Records.callStep (h : Records c id r d) (hcore : Core d)
    (hsettled : r.isInFlight = false) (hdelivery : call.isDelivery = true)
    (hholds : Holds c id (callStep d call)) : Records c id r (callStep d call) := by
  cases call with
  | admitEvent event => exact h.admitEvent hcore hsettled event hholds
  | settleEvent event outcome => exact h.settleEvent hcore hsettled event outcome hholds
  | abandonEvent event =>
    have honly := abandonEvent_onlyWindow hcore event
    by_cases hown : c = event.clientInstanceId
    · subst hown
      exact h.onlyWindow hcore hsettled honly (whenNamed_keepsSettled (abandon_keepsSettled _))
        hholds
    · exact h.bystander (honly.bystander hown) hholds
  | admitAndSettle event outcome =>
    change Holds c id (admitAndSettle d event outcome).1 at hholds
    change Records c id r (admitAndSettle d event outcome).1
    rcases admitAndSettle_eq d event outcome with heq | heq
    · rw [heq] at hholds ⊢
      exact h.admitEvent hcore hsettled event hholds
    · rw [heq] at hholds ⊢
      have hmiddle := settleEvent_holds (hcore.admitEvent event) event outcome hholds
      exact (h.admitEvent hcore hsettled event hmiddle).settleEvent (hcore.admitEvent event)
        hsettled event outcome hholds
  | record client eventId | removeClient client | clear => simp [Call.isDelivery] at hdelivery

theorem Records.duplicate {ty : EventType} (h : Records c id (.settled seq ty outcome) d)
    (hid : id ≠ []) :
    (Deduplicators.admitEvent d ⟨c, seq, id, ty⟩).2 =
      .ok (.duplicate outcome (lastContiguousProcessedSeq d c)) := by
  obtain ⟨w, hc, hr⟩ := h
  simp [Deduplicators.admitEvent, hid, hc, admitToWindow, hr, replayOutcome, EventRecord.eventSeq,
    EventRecord.eventType, lastContiguousProcessedSeq]

theorem run_core (h : Core d) (calls : List Call) : Core (run callStep d calls) :=
  run_invariant (P := Core) (fun _ call hcore => callStep_core hcore call) h calls

theorem run_entries (h : Core d) (calls : List Call) :
    (run callStep d calls).maxEntriesPerClient = d.maxEntriesPerClient := by
  induction calls generalizing d with
  | nil => rfl
  | cons call rest ih => rw [run_cons, ih (callStep_core h call), callStep_entries h]

theorem settlement_pos (h : Core d)
    (hst : settles d call = some st) : 0 < st.eventSeq := by
  obtain ⟨e, event, outcome, hcore, hsettle, -⟩ := settles_some h hst
  obtain ⟨w, w', hw, -, hrecord, -⟩ := settleEvent_settled hcore hsettle
  have := (hcore.windows _ _ hw).inFlight_above _ _ _ hrecord
  omega

theorem refuses_of_settles (h : Core d)
    (hst : settles d call = some st) : Refuses st.client st.eventSeq (callStep d call) := by
  obtain ⟨e, event, outcome, hcore, hsettle, heq⟩ := settles_some h hst
  obtain ⟨w, w', -, hw', -, hsettled⟩ := settleEvent_settled hcore hsettle
  rw [heq]
  exact Or.inl ⟨w', hw', (hsettled.covered_iff _).mpr (Or.inr rfl)⟩

theorem records_of_settles (h : Core d)
    (hst : settles d call = some st) :
    st.eventId ≠ [] ∧ Records st.client st.eventId (.settled st.eventSeq st.eventType st.outcome)
      (callStep d call) := by
  obtain ⟨e, event, outcome, hcore, hsettle, heq⟩ := settles_some h hst
  obtain ⟨w, w', -, hw', -, hsettled⟩ := settleEvent_settled hcore hsettle
  obtain ⟨hid, -, -, -, -, heventId, -⟩ := settlementOf_some hsettle
  rw [heq]
  exact ⟨heventId ▸ hid, w', hw', by rw [hsettled.lookup, if_pos rfl]⟩

/-- Once an event is settled, its sequence is never admitted as fresh again
while the client is kept, and its identity is answered with the outcome of its
settlement while the window holds it. -/
theorem settled_at_most_once (maxEntries maxWindows : Nat) (before after : List Call) (call : Call)
    (st : Settlement) (hafter : ∀ later ∈ after, later.isDelivery = true)
    (hsettles : settles (run callStep (EventDeduplicator.withLimits maxEntries maxWindows) before)
      call = some st) :
    (EveryState callStep (Kept st.client)
        (run callStep (EventDeduplicator.withLimits maxEntries maxWindows) (before ++ [call]))
        after →
      ∀ event : Event, event.clientInstanceId = st.client → event.eventSeq = st.eventSeq →
        ∀ f, (admitEvent (run callStep (EventDeduplicator.withLimits maxEntries maxWindows)
          (before ++ [call] ++ after)) event).2 ≠ .ok (.fresh f)) ∧
    (EveryState callStep (Holds st.client st.eventId)
        (run callStep (EventDeduplicator.withLimits maxEntries maxWindows) (before ++ [call]))
        after →
      (admitEvent (run callStep (EventDeduplicator.withLimits maxEntries maxWindows)
          (before ++ [call] ++ after))
        ⟨st.client, st.eventSeq, st.eventId, st.eventType⟩).2 =
      .ok (.duplicate st.outcome (lastContiguousProcessedSeq
        (run callStep (EventDeduplicator.withLimits maxEntries maxWindows)
          (before ++ [call] ++ after)) st.client))) := by
  have hbefore := run_core (core_withLimits maxEntries maxWindows) before
  have hcore := callStep_core hbefore call
  have hpos := settlement_pos hbefore hsettles
  rw [run_append _ (before ++ [call]), run_append _ before, run_cons, run_nil]
  have hdelivery : EveryStep callStep (fun _ later => later.isDelivery = true)
      (callStep (run callStep (EventDeduplicator.withLimits maxEntries maxWindows) before) call)
      after := everyStep_of_mem hafter _
  constructor
  · rintro hkept event hclient hseq f
    have hrefuses := EveryState.carries
      (P := fun d => Core d ∧ Refuses st.client st.eventSeq d)
      (fun d later hd hok hk => ⟨callStep_core hd.1 later, hd.2.callStep hd.1 hpos hok hk⟩)
      hdelivery hkept ⟨hcore, refuses_of_settles hbefore hsettles⟩
    rw [← hclient, ← hseq] at hrefuses
    exact hrefuses.2.not_fresh hrefuses.1 f
  · intro hholds
    obtain ⟨hid, hrecords⟩ := records_of_settles hbefore hsettles
    have hkept := EveryState.carries
      (P := fun d => Core d ∧ Records st.client st.eventId
        (.settled st.eventSeq st.eventType st.outcome) d)
      (fun d later hd hok hk => ⟨callStep_core hd.1 later, hd.2.callStep hd.1 rfl hok hk⟩)
      hdelivery hholds ⟨hcore, hrecords⟩
    exact hkept.2.duplicate hid

/-- The window of a settled client is evicted for another client, and comes
back as a retained frontier. -/
theorem evictedClient_refused :
    (∀ f, (admitEvent (run callStep (EventDeduplicator.withLimits 4 1)
      ([.admitEvent (firstEventOf clientA)] ++
        [.settleEvent (firstEventOf clientA) ⟨true, 1, ""⟩] ++
        [.admitEvent (firstEventOf clientB)])) ⟨clientA, 1, [9], none⟩).2 ≠ .ok (.fresh f)) ∧
    (admitEvent (run callStep (EventDeduplicator.withLimits 4 1)
      ([.admitEvent (firstEventOf clientA)] ++
        [.settleEvent (firstEventOf clientA) ⟨true, 1, ""⟩] ++ [])) (firstEventOf clientA)).2 =
      .ok (.duplicate ⟨true, 1, ""⟩ 1) := by
  have hsettles : settles (run callStep (EventDeduplicator.withLimits 4 1)
      [.admitEvent (firstEventOf clientA)]) (.settleEvent (firstEventOf clientA) ⟨true, 1, ""⟩) =
      some ⟨clientA, [1], 1, none, ⟨true, 1, ""⟩⟩ := by
    decide +kernel
  constructor
  · refine (settled_at_most_once 4 1 _ [.admitEvent (firstEventOf clientB)] _ _ (by decide)
      hsettles).1 ⟨?_, ?_⟩ _ rfl rfl
    · exact Or.inl (Option.isSome_iff_exists.mp (by decide +kernel))
    · exact Or.inr (Option.isSome_iff_exists.mp (by decide +kernel))
  · have hanswer := (settled_at_most_once 4 1 _ [] _ _ (by simp) hsettles).2
      (records_held (by decide +kernel))
    refine Eq.trans hanswer ?_
    decide +kernel

/-!
The contiguous frontier.
-/

/-- The sequences of a client settled in the course of a run. -/
def SettledIn (d : EventDeduplicator) (calls : List Call) (c : Bytes) (seq : Nat) : Prop :=
  ∃ st ∈ settlements d calls, st.client = c ∧ st.eventSeq = seq

/-- The client's window survives a step. -/
def NotEvicted (c : Bytes) (d : EventDeduplicator) (call : Call) : Prop :=
  (∃ w, d.clients[c]? = some w) → ∃ w, (callStep d call).clients[c]? = some w

structure Tracks (c : Bytes) (settled : Nat → Prop) (d : EventDeduplicator) : Prop where
  live : ∀ w : ClientDedupeWindow, d.clients[c]? = some w →
    ∀ seq, settled seq ↔ 0 < seq ∧ Covered w seq
  absent : d.clients[c]? = none → d.evictedFrontiers[c]? = none ∧ ∀ seq, ¬ settled seq

variable {settled : Nat → Prop}

theorem Tracks.onlyWindow (now : Nat → Prop)
    (h : Tracks c settled d) (hcore : Core d)
    (honly : OnlyWindow d c change d')
    (hchange : ∀ w : ClientDedupeWindow, d.clients[c]? = some w →
      WindowInv d.maxEntriesPerClient w → ∀ seq, 0 < seq →
        (Covered (change w) seq ↔ Covered w seq ∨ now seq))
    (hpos : ∀ seq, now seq → 0 < seq) (hnow : d.clients[c]? = none → ∀ seq, ¬ now seq) :
    Tracks c (fun seq => settled seq ∨ now seq) d' where
  live := by
    intro w' hw' seq
    rw [honly.own, Option.map_eq_some_iff] at hw'
    obtain ⟨w, hw, rfl⟩ := hw'
    rw [h.live w hw seq]
    constructor
    · rintro (⟨hseq, hcovered⟩ | hseq)
      · exact ⟨hseq, (hchange w hw (hcore.windows c w hw) seq hseq).mpr (Or.inl hcovered)⟩
      · exact ⟨hpos seq hseq,
          (hchange w hw (hcore.windows c w hw) seq (hpos seq hseq)).mpr (Or.inr hseq)⟩
    · rintro ⟨hseq, hcovered⟩
      rcases (hchange w hw (hcore.windows c w hw) seq hseq).mp hcovered with hold | hnew
      · exact Or.inl ⟨hseq, hold⟩
      · exact Or.inr hnew
  absent := by
    intro hnone
    rw [honly.own, Option.map_eq_none_iff] at hnone
    obtain ⟨hfrontier, hsettled⟩ := h.absent hnone
    refine ⟨by rw [honly.frontiers, hfrontier], fun seq hseq => ?_⟩
    exact hseq.elim (hsettled seq) (hnow hnone seq)

theorem Tracks.congr {settled' : Nat → Prop} (h : Tracks c settled d)
    (heq : ∀ seq, settled' seq ↔ settled seq) : Tracks c settled' d := by
  have hsame : settled' = settled := funext fun seq => propext (heq seq)
  rw [hsame]
  exact h

theorem Tracks.bystander (h : Tracks c settled d)
    (hby : Bystander d d' c)
    (hkept : (∃ w, d.clients[c]? = some w) → ∃ w, d'.clients[c]? = some w) :
    Tracks c settled d' := by
  obtain ⟨hclients, hfrontiers⟩ | ⟨w, hw, -, hnone, -⟩ := hby
  · constructor
    · intro w hw
      rw [hclients] at hw
      exact h.live w hw
    · intro hnone
      rw [hclients] at hnone
      obtain ⟨hfrontier, hsettled⟩ := h.absent hnone
      refine ⟨?_, hsettled⟩
      rcases hfrontiers with heq | heq
      · rw [heq, hfrontier]
      · exact heq
  · obtain ⟨w', hw'⟩ := hkept ⟨w, hw⟩
    rw [hnone] at hw'
    simp at hw'

theorem Tracks.admitEvent (h : Tracks c settled d)
    (hcore : Core d) (event : Event)
    (hkept : (∃ w, d.clients[c]? = some w) → ∃ w, (admitEvent d event).1.clients[c]? = some w) :
    Tracks c settled (admitEvent d event).1 := by
  by_cases hown : c = event.clientInstanceId
  · subst hown
    obtain ⟨-, heq⟩ | ⟨-, w, hc, -⟩ | ⟨-, hc, e, -, heq⟩ | ⟨-, hc, e, -, -, heq⟩ :=
      admitEvent_cases hcore event
    · rw [heq]
      exact h
    · refine (h.onlyWindow (fun _ => False) hcore (admitEvent_onlyWindow hcore hc)
        ?_ (fun _ hf => hf.elim) (fun _ _ hf => hf)).congr (fun _ => by simp)
      intro v _ hv seq _
      rw [whenNamed_covered (admit_covered hv hcore.entries_pos _ _ _ _), or_false]
    · obtain ⟨hfrontier, hsettled⟩ := h.absent hc
      have hzero : restartFrontier d event.clientInstanceId = 0 := by
        rw [restartFrontier, hfrontier, Option.getD_none]
      rw [heq, hzero, retainFrontier_zero]
      constructor
      · intro w hw
        change d.clients[event.clientInstanceId]? = some w at hw
        rw [hc] at hw
        simp at hw
      · exact fun _ => ⟨withoutFrontier_own d _, hsettled⟩
    · obtain ⟨hfrontier, hsettled⟩ := h.absent hc
      rw [heq]
      constructor
      · intro w hw seq
        rw [addClient_lookup, if_pos rfl, Option.some.injEq] at hw
        subst hw
        rw [restartedWindow_covered hcore, restartFrontier, hfrontier, Option.getD_none]
        exact iff_of_false (hsettled seq) (by omega)
      · intro hnone
        rw [addClient_lookup, if_pos rfl] at hnone
        simp at hnone
  · exact h.bystander (admitEvent_bystander hcore event hown) hkept

theorem settle_covered_iff (hcore : Core d) (hc : d.clients[event.clientInstanceId]? = some w)
    (seq : Nat) :
    Covered (whenNamed event.eventId (fun w => (settle w event.eventId outcome).1) w) seq ↔
      Covered w seq ∨ ∃ st, settlementOf d event outcome = some st ∧ st.eventSeq = seq := by
  have hw := hcore.windows _ _ hc
  cases hst : settlementOf d event outcome with
  | none =>
    simp only [reduceCtorEq, false_and, exists_false, or_false]
    unfold whenNamed
    split
    · rfl
    · rename_i hid
      simp only [settle_not_inFlight outcome (settlementOf_none hst hid hc)]
  | some st =>
    obtain ⟨hid, w', hc', hrecord, -, -, -⟩ := settlementOf_some hst
    rw [hc, Option.some.injEq] at hc'
    subst hc'
    rw [whenNamed, if_neg hid, (settle_inFlight hw outcome hrecord).1.covered_iff]
    simp [eq_comm]

theorem Tracks.settleEvent (h : Tracks c settled d)
    (hcore : Core d) (event : Event) (outcome : EventOutcomeRecord) :
    Tracks c (fun seq => settled seq ∨ ∃ st, settlementOf d event outcome = some st ∧
      st.client = c ∧ st.eventSeq = seq) (settleEvent d event outcome).1 := by
  have honly := settleEvent_onlyWindow hcore event outcome
  by_cases hown : c = event.clientInstanceId
  · subst hown
    refine h.onlyWindow _ hcore honly ?_ ?_ ?_
    · intro w hc _ seq _
      rw [settle_covered_iff hcore hc]
      refine or_congr_right (exists_congr fun st => and_congr_right fun hst => ?_)
      obtain ⟨-, -, -, -, hclient, -⟩ := settlementOf_some hst
      rw [hclient]
      simp
    · rintro seq ⟨st, hst, -, rfl⟩
      have hsettles : settles d (.settleEvent event outcome) = some st := hst
      exact settlement_pos hcore hsettles
    · rintro hnone seq ⟨st, hst, -, -⟩
      obtain ⟨-, w, hw, -⟩ := settlementOf_some hst
      rw [hnone] at hw
      simp at hw
  · refine (h.bystander (honly.bystander hown) ?_).congr fun seq => ?_
    · rintro ⟨w, hw⟩
      exact ⟨w, by rw [honly.others c hown, hw]⟩
    · constructor
      · rintro (hs | ⟨st, hst, hclient, -⟩)
        · exact hs
        · obtain ⟨-, -, -, -, hother, -⟩ := settlementOf_some hst
          exact absurd (hclient.symm.trans hother) hown
      · exact Or.inl

theorem settleEvent_live_iff (hcore : Core d) (event : Event) (outcome : EventOutcomeRecord)
    (c : Bytes) : (∃ w, (settleEvent d event outcome).1.clients[c]? = some w) ↔
      ∃ w, d.clients[c]? = some w := by
  have honly := settleEvent_onlyWindow hcore event outcome
  by_cases hown : c = event.clientInstanceId
  · subst hown
    rw [honly.own]
    simp [Option.map_eq_some_iff]
  · rw [honly.others c hown]

theorem Tracks.callStep (h : Tracks c settled d)
    (hcore : Core d) (hdelivery : call.isDelivery = true)
    (hkept : NotEvicted c d call) :
    Tracks c (fun seq => settled seq ∨ ∃ st, settles d call = some st ∧ st.client = c ∧
      st.eventSeq = seq) (callStep d call) := by
  cases call with
  | admitEvent event =>
    refine (h.admitEvent hcore event hkept).congr fun seq => ?_
    simp [settles]
  | settleEvent event outcome => exact h.settleEvent hcore event outcome
  | abandonEvent event =>
    have honly := abandonEvent_onlyWindow hcore event
    have hnext : Tracks c settled (abandonEvent d event) := by
      by_cases hown : c = event.clientInstanceId
      · subst hown
        refine (h.onlyWindow (fun _ => False) hcore honly ?_ (fun _ hf => hf.elim)
          (fun _ _ hf => hf)).congr (fun _ => by simp)
        intro w _ _ seq _
        rw [whenNamed_covered (abandon_covered w _ seq), or_false]
      · exact h.bystander (honly.bystander hown) hkept
    refine hnext.congr fun seq => ?_
    simp [settles]
  | admitAndSettle event outcome =>
    change Tracks c _ (admitAndSettle d event outcome).1
    cases hgoes : goesOn (Deduplicators.admitEvent d event).2 with
    | true =>
      have heq := admitAndSettle_goesOn outcome hgoes
      have hmiddle : Tracks c settled (Deduplicators.admitEvent d event).1 := by
        refine h.admitEvent hcore event fun hlive => ?_
        have hafter := hkept hlive
        change ∃ w, (admitAndSettle d event outcome).1.clients[c]? = some w at hafter
        rw [heq] at hafter
        exact (settleEvent_live_iff (hcore.admitEvent event) event outcome c).mp hafter
      rw [heq]
      refine (hmiddle.settleEvent (hcore.admitEvent event) event outcome).congr fun seq => ?_
      simp [settles, hgoes]
    | false =>
      have heq := admitAndSettle_stops outcome hgoes
      have hnext : Tracks c settled (Deduplicators.admitEvent d event).1 := by
        refine h.admitEvent hcore event fun hlive => ?_
        have hafter := hkept hlive
        change ∃ w, (admitAndSettle d event outcome).1.clients[c]? = some w at hafter
        rw [heq] at hafter
        exact hafter
      rw [heq]
      refine hnext.congr fun seq => ?_
      simp [settles, hgoes]
  | record client eventId | removeClient client | clear => simp [Call.isDelivery] at hdelivery

theorem settledIn_cons (d : EventDeduplicator) (call : Call) (rest : List Call) (c : Bytes)
    (seq : Nat) : SettledIn d (call :: rest) c seq ↔
      (∃ st, settles d call = some st ∧ st.client = c ∧ st.eventSeq = seq) ∨
        SettledIn (callStep d call) rest c seq := by
  unfold SettledIn
  simp only [settlements, List.mem_append, Option.mem_toList, or_and_right, exists_or]

theorem run_tracks (h : Tracks c settled d) (hcore : Core d)
    {calls : List Call} (hdelivery : ∀ call ∈ calls, call.isDelivery = true)
    (hkept : EveryStep callStep (NotEvicted c) d calls) :
    Tracks c (fun seq => settled seq ∨ SettledIn d calls c seq) (run callStep d calls) := by
  induction calls generalizing d settled with
  | nil =>
    refine h.congr fun seq => ?_
    simp [SettledIn, settlements]
  | cons call rest ih =>
    have hstep := h.callStep hcore (hdelivery call List.mem_cons_self) hkept.1
    have hrest := ih hstep (callStep_core hcore call)
      (fun later hlater => hdelivery later (List.mem_cons_of_mem call hlater)) hkept.2
    rw [run_cons]
    refine hrest.congr fun seq => ?_
    rw [settledIn_cons, or_assoc]

theorem tracks_withLimits (maxEntries maxWindows : Nat) (c : Bytes) :
    Tracks c (fun _ => False) (EventDeduplicator.withLimits maxEntries maxWindows) where
  live := by simp [EventDeduplicator.withLimits]
  absent := by simp [EventDeduplicator.withLimits]

theorem settledIn_append (d : EventDeduplicator) (earlier later : List Call) (c : Bytes)
    (seq : Nat) (h : SettledIn d earlier c seq) : SettledIn d (earlier ++ later) c seq := by
  induction earlier generalizing d with
  | nil => simp [SettledIn, settlements] at h
  | cons call rest ih =>
    rw [List.cons_append, settledIn_cons]
    rw [settledIn_cons] at h
    exact h.imp_right (ih (callStep d call))

theorem Tracks.isGreatest (h : Tracks c settled d)
    (hcore : Core d) : IsGreatest {n | ∀ j, 1 ≤ j → j ≤ n → settled j}
      (lastContiguousProcessedSeq d c) := by
  unfold lastContiguousProcessedSeq
  cases hc : d.clients[c]? with
  | none =>
    obtain ⟨hfrontier, hsettled⟩ := h.absent hc
    simp only [hfrontier, Option.getD_none]
    refine ⟨fun j hone hzero => by omega, fun n hn => ?_⟩
    by_contra hpos
    exact hsettled 1 (hn 1 (Nat.le_refl _) (by omega))
  | some w =>
    have hw := hcore.windows c w hc
    constructor
    · intro j hone hle
      exact (h.live w hc j).mpr ⟨by omega, Or.inl hle⟩
    · intro n hn
      -- the sequence right after the frontier is not settled
      by_contra hlarger
      simp only [Nat.not_le] at hlarger
      obtain ⟨-, hle | hahead⟩ := (h.live w hc _).mp
        (hn (w.lastContiguousProcessedSeq + 1) (by omega) (by omega))
      · omega
      · exact hw.gap hahead

/-- On a client whose window is never evicted, the frontier is the longest
settled prefix and never falls, nothing in flight lies at or below it, the
sequences kept ahead of it are the settled ones above it, and every unassigned
sequence of the receive window is admitted. -/
theorem contiguous_frontier (maxEntries maxWindows : Nat) (calls : List Call) (c : Bytes)
    (hdelivery : ∀ call ∈ calls, call.isDelivery = true)
    (hkept : EveryStep callStep (NotEvicted c)
      (EventDeduplicator.withLimits maxEntries maxWindows) calls) :
    IsGreatest {n | ∀ j, 1 ≤ j → j ≤ n →
        SettledIn (EventDeduplicator.withLimits maxEntries maxWindows) calls c j}
      (lastContiguousProcessedSeq
        (run callStep (EventDeduplicator.withLimits maxEntries maxWindows) calls) c) ∧
    (∀ earlier later, calls = earlier ++ later →
      lastContiguousProcessedSeq
          (run callStep (EventDeduplicator.withLimits maxEntries maxWindows) earlier) c ≤
        lastContiguousProcessedSeq
          (run callStep (EventDeduplicator.withLimits maxEntries maxWindows) calls) c) ∧
    ∀ w : ClientDedupeWindow,
      (run callStep (EventDeduplicator.withLimits maxEntries maxWindows) calls).clients[c]? =
        some w →
      (∀ (id : Bytes) (seq : Nat) (ty : EventType),
        w.seenIds[id]? = some (.inFlight seq ty) → w.lastContiguousProcessedSeq < seq) ∧
      (∀ seq, seq ∈ w.settledOutOfOrder ↔
        SettledIn (EventDeduplicator.withLimits maxEntries maxWindows) calls c seq ∧
          w.lastContiguousProcessedSeq < seq) ∧
      ∀ (id : Bytes) (seq : Nat) (ty : EventType),
        (admitToWindow w id seq ty (max maxEntries 1)).2 ≠ .error .receiveWindowFull ∧
        (w.seenIds[id]? = none →
          (∀ (other : Bytes) (r : EventRecord), w.seenIds[other]? = some r → r.eventSeq ≠ seq) →
          w.lastContiguousProcessedSeq < seq →
          seq ≤ w.lastContiguousProcessedSeq + max maxEntries 1 → seq ≤ u64Max →
          (admitToWindow w id seq ty (max maxEntries 1)).2 =
            .ok (.fresh w.lastContiguousProcessedSeq)) := by
  have hcore := run_core (core_withLimits maxEntries maxWindows) calls
  have hentries := run_entries (core_withLimits maxEntries maxWindows) calls
  have htracks := run_tracks (tracks_withLimits maxEntries maxWindows c)
    (core_withLimits maxEntries maxWindows) hdelivery hkept
  simp only [false_or] at htracks
  have hgreatest := htracks.isGreatest hcore
  refine ⟨hgreatest, ?_, ?_⟩
  · rintro earlier later rfl
    have hearlier := run_tracks (tracks_withLimits maxEntries maxWindows c)
      (core_withLimits maxEntries maxWindows)
      (fun call hcall => hdelivery call (List.mem_append_left later hcall))
      (EveryStep.append.mp hkept).1
    simp only [false_or] at hearlier
    have hfirst := hearlier.isGreatest (run_core (core_withLimits maxEntries maxWindows) earlier)
    exact hgreatest.2 fun j hone hle => settledIn_append _ _ _ _ _ (hfirst.1 j hone hle)
  · intro w hw
    have hinv := hcore.windows c w hw
    rw [hentries] at hinv
    have hpos : 1 ≤ max maxEntries 1 := Nat.le_max_right _ _
    refine ⟨hinv.inFlight_above, ?_, ?_⟩
    · intro seq
      rw [htracks.live w hw seq]
      constructor
      · intro hahead
        have habove := hinv.ahead_above hahead
        exact ⟨⟨by omega, Or.inr hahead⟩, habove⟩
      · rintro ⟨⟨-, hle | hahead⟩, habove⟩
        · omega
        · exact hahead
    · intro id seq ty
      refine ⟨admit_not_full hinv hpos id seq ty, fun hfresh hfree habove hle hmax => ?_⟩
      refine Admissible.admit_fresh hinv hpos ⟨hfresh, ?_, habove, Nat.le_min.mpr ⟨hle, hmax⟩⟩ ty
      rw [Option.eq_none_iff_forall_ne_some]
      intro other hother
      obtain ⟨-, r, hr, hseq⟩ := (hinv.inverse seq other).mp hother
      exact hfree other r hr hseq

/-- Two events settled in the opposite order of their sequences. -/
def reversedRun : List Call :=
  [.admitEvent ⟨clientA, 1, [1], none⟩, .admitEvent ⟨clientA, 2, [2], none⟩,
    .settleEvent ⟨clientA, 2, [2], none⟩ ⟨true, 1, ""⟩,
    .settleEvent ⟨clientA, 1, [1], none⟩ ⟨true, 2, ""⟩]

theorem reversedRun_frontier :
    IsGreatest {n | ∀ j, 1 ≤ j → j ≤ n →
      SettledIn (EventDeduplicator.withLimits 4 4) reversedRun clientA j} 2 := by
  have hfrontier : lastContiguousProcessedSeq
      (run callStep (EventDeduplicator.withLimits 4 4) reversedRun) clientA = 2 := by
    decide +kernel
  rw [← hfrontier]
  refine (contiguous_frontier 4 4 reversedRun clientA (by decide) ⟨?_, ?_, ?_, ?_, trivial⟩).1
  all_goals
    intro _
    exact Option.isSome_iff_exists.mp (by decide +kernel)

end Srui.EventDedupe.Delivery

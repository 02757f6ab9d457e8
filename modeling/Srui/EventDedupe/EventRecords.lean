import Srui.EventDedupe.Representation

/-!
What the calls do to the record of one event: who admits it, settles it or abandons
it, and that nobody else does more than forget a settled one.
-/

namespace Srui.EventDedupe.EventRecords

open Basic.FiniteMaps EventDedupe.Windows EventDedupe.Deduplicators EventDedupe.WindowInvariant
open EventDedupe.Representation

def recordOf (d : EventDeduplicator) (client eventId : Bytes) : Option EventRecord :=
  d.clients[client]?.bind fun window => window.seenIds[eventId]?

/-- A record stays as it is, or is forgotten once it is settled. -/
def Fades (before after : Option EventRecord) : Prop :=
  after = before ∨ after = none ∧ ∃ seq ty outcome, before = some (.settled seq ty outcome)

theorem Fades.refl (r : Option EventRecord) : Fades r r := .inl rfl

theorem Fades.trans {r r' r'' : Option EventRecord} (h : Fades r r') (h' : Fades r' r'') :
    Fades r r'' := by
  rcases h with rfl | ⟨rfl, hsettled⟩
  · exact h'
  · rcases h' with rfl | ⟨rfl, -⟩
    · exact .inr ⟨rfl, hsettled⟩
    · exact .inr ⟨rfl, hsettled⟩

variable {ty : EventType} {seq : Nat}

theorem Fades.inFlight {r r' : Option EventRecord} (h : Fades r r')
    (hr : r = some (.inFlight seq ty)) : r' = some (.inFlight seq ty) := by
  rcases h with rfl | ⟨-, _, _, _, hsettled⟩
  · exact hr
  · rw [hr] at hsettled
    simp at hsettled

variable {d d' : EventDeduplicator} {maxEntries : Nat} {w w' : ClientDedupeWindow}

variable {client : Bytes}

theorem recordOf_some (hc : d.clients[client]? = some w) (id : Bytes) :
    recordOf d client id = w.seenIds[id]? := by
  rw [recordOf, hc, Option.bind_some]

theorem recordOf_none (hc : d.clients[client]? = none) (id : Bytes) :
    recordOf d client id = none := by
  rw [recordOf, hc, Option.bind_none]

theorem Evicted.fades {id : Bytes} {r : EventRecord} (h : Evicted w id r w') (a : Bytes) :
    Fades w.seenIds[a]? w'.seenIds[a]? := by
  rw [h.lookup]
  split
  · rename_i hsame
    obtain ⟨seq, ty, outcome, rfl, -⟩ := isEvictable_iff.mp h.evictable
    exact .inr ⟨rfl, seq, ty, outcome, hsame ▸ h.held⟩
  · exact .refl _

theorem makeSpace_fades (rounds : Nat) (h : WindowInv maxEntries w) (a : Bytes) :
    Fades w.seenIds[a]? (makeSpace maxEntries rounds w).1.seenIds[a]? := by
  induction rounds generalizing w with
  | zero =>
    rw [makeSpace]
    split <;> exact .refl _
  | succ rounds ih =>
    rw [makeSpace]
    split
    · exact .refl _
    · cases hevict : evictOldestSettled w with
      | none => exact .refl _
      | some next =>
        obtain ⟨id, r, hevicted⟩ := evictOldestSettled_some h.listing.nodup hevict
        exact (Evicted.fades hevicted a).trans (ih (hevicted.windowInv h))

theorem admitToWindow_fades (h : WindowInv maxEntries w) (hpos : 1 ≤ maxEntries) {id a : Bytes}
    (seq : Nat) (ty : EventType) (hne : id ≠ a) :
    Fades w.seenIds[a]? (admitToWindow w id seq ty maxEntries).1.seenIds[a]? := by
  obtain ⟨r, -, heq⟩ | ⟨-, -, e, -, heq⟩ | ⟨-, heq⟩ := admit_cases h hpos id seq ty
  · rw [heq]
    exact .refl _
  · rw [heq]
    exact .refl _
  · rw [heq]
    simp only [fileInFlight_lookup, if_neg hne]
    exact makeSpace_fades _ h a

theorem Bystander.fades {c : Bytes} (h : Bystander d d' c) (id : Bytes) :
    Fades (recordOf d c id) (recordOf d' c id) := by
  obtain ⟨hclients, -⟩ | ⟨w, hw, hpinned, hnone, -⟩ := h
  · rw [recordOf, recordOf, hclients]
    exact .refl _
  · rw [recordOf_some hw, recordOf_none hnone]
    cases hid : w.seenIds[id]? with
    | none => exact .refl _
    | some r =>
      cases r with
      | settled seq ty outcome => exact .inr ⟨rfl, seq, ty, outcome, rfl⟩
      | inFlight seq ty =>
        rw [isPinned, hasInFlight_iff.mpr ⟨id, seq, ty, hid⟩] at hpinned
        simp at hpinned

inductive Admission (d : EventDeduplicator) (event : Event) :
    EventDeduplicator → Except EventSequenceError RecordOutcome → Prop where
  | refused {d' : EventDeduplicator} {error : EventSequenceError}
      (hrecords : ∀ c id, recordOf d' c id = recordOf d c id) : Admission d event d' (.error error)
  | pending {d' : EventDeduplicator} {last : Nat}
      (hrecords : ∀ c id, recordOf d' c id = recordOf d c id) :
      Admission d event d' (.ok (.pending last))
  | duplicate {d' : EventDeduplicator} {seq last : Nat} {ty : EventType}
      {prior : EventOutcomeRecord}
      (hown : recordOf d event.clientInstanceId event.eventId = some (.settled seq ty prior))
      (hrecords : ∀ c id, recordOf d' c id = recordOf d c id) :
      Admission d event d' (.ok (.duplicate prior last))
  | fresh {d' : EventDeduplicator} {last : Nat} (hid : event.eventId ≠ [])
      (habsent : recordOf d event.clientInstanceId event.eventId = none)
      (hown : recordOf d' event.clientInstanceId event.eventId =
        some (.inFlight event.eventSeq event.eventType))
      (hothers : ∀ c id, ¬ (event.clientInstanceId = c ∧ event.eventId = id) →
        Fades (recordOf d c id) (recordOf d' c id)) : Admission d event d' (.ok (.fresh last))

theorem touchPut_records (hc : d.clients[client]? = some w) (c id : Bytes) :
    recordOf (putWindow (touchClient d client) client w) c id = recordOf d c id := by
  rw [recordOf, touchPut_lookup, recordOf]
  split
  · rename_i hsame
    rw [← hsame, hc]
  · rfl

theorem fileInFlight_admission (h : Core d) {event : Event} (hid : event.eventId ≠ [])
    (hc : d.clients[event.clientInstanceId]? = some w)
    (hadmitted : admitToWindow w event.eventId event.eventSeq event.eventType
        d.maxEntriesPerClient =
      (fileInFlight (makeSpace d.maxEntriesPerClient w.seenIds.size w).1 event.eventId
        event.eventSeq event.eventType, .ok (.fresh w.lastContiguousProcessedSeq)))
    (hfresh : w.seenIds[event.eventId]? = none) :
    Admission d event (admitEvent d event).1 (.ok (.fresh w.lastContiguousProcessedSeq)) := by
  have honly := admitEvent_onlyWindow h hc
  have hown := honly.own
  rw [hc, Option.map_some, whenNamed, if_neg hid] at hown
  refine .fresh hid ?_ ?_ ?_
  · rw [recordOf_some hc, hfresh]
  · rw [recordOf_some hown, hadmitted]
    exact (fileInFlight_lookup _).trans (if_pos rfl)
  · intro c id hother
    rcases eq_or_ne c event.clientInstanceId with rfl | hne
    · rw [recordOf_some hown, recordOf_some hc]
      exact admitToWindow_fades (h.windows _ _ hc) h.entries_pos _ _
        fun hsame => hother ⟨rfl, hsame⟩
    · exact Bystander.fades (honly.bystander hne) id

theorem admitEvent_admission (h : Core d) (event : Event) :
    Admission d event (admitEvent d event).1 (admitEvent d event).2 := by
  obtain ⟨-, heq⟩ | ⟨hid, w, hc, heq⟩ | ⟨-, hc, e, -, heq⟩ | ⟨hid, hc, d', hroom, hok, heq⟩ :=
    admitEvent_cases h event
  · rw [heq]
    exact .refused fun _ _ => rfl
  · obtain ⟨r, hr, hreplay⟩ | ⟨-, -, e, -, hrefused⟩ | ⟨hok, hadmitted⟩ :=
      admit_cases (h.windows _ _ hc) h.entries_pos event.eventId event.eventSeq event.eventType
    · rw [heq, hreplay]
      simp only [replayOutcome]
      split
      · exact .refused (touchPut_records hc)
      split
      · exact .refused (touchPut_records hc)
      cases r with
      | inFlight seq ty => exact .pending (touchPut_records hc)
      | settled seq ty outcome =>
        exact .duplicate ((recordOf_some hc _).trans hr) (touchPut_records hc)
    · rw [heq, hrefused]
      exact .refused (touchPut_records hc)
    · have hfiled := fileInFlight_admission h hid hc hadmitted hok.fresh
      rw [heq] at hfiled ⊢
      rw [hadmitted] at hfiled ⊢
      exact hfiled
  · rw [heq]
    refine .refused fun c id => ?_
    rw [recordOf, retainFrontier_clients]
    rfl
  · have hothers : ∀ c id, ¬ (event.clientInstanceId = c ∧ event.eventId = id) →
        Fades (recordOf d c id) (recordOf (admitEvent d event).1 c id) := by
      intro c id hother
      rcases eq_or_ne c event.clientInstanceId with rfl | hne
      · rw [recordOf_none hc]
        have hlookup : (admitEvent d event).1.clients[event.clientInstanceId]? =
            some (restartedWindow d event) := by
          rw [heq]
          exact (addClient_lookup _ _ _ _).trans (if_pos rfl)
        rw [recordOf_some hlookup]
        have hfades := admitToWindow_fades
          (windowInv_startingAt d.maxEntriesPerClient (restartFrontier d event.clientInstanceId))
          h.entries_pos event.eventSeq event.eventType fun hsame => hother ⟨rfl, hsame⟩
        have hempty : (ClientDedupeWindow.startingAt
            (restartFrontier d event.clientInstanceId)).seenIds[id]? = none := by
          simp [ClientDedupeWindow.startingAt]
        rw [hempty] at hfades
        exact hfades
      · exact Bystander.fades (admitEvent_bystander h event hne) id
    obtain ⟨r, hr, -⟩ | ⟨-, hnot, -⟩ | ⟨-, hadmitted⟩ := admit_cases
      (windowInv_startingAt d.maxEntriesPerClient (restartFrontier d event.clientInstanceId))
      h.entries_pos event.eventId event.eventSeq event.eventType
    · simp [ClientDedupeWindow.startingAt] at hr
    · exact absurd hok hnot
    · rw [heq] at hothers ⊢
      refine .fresh hid (recordOf_none hc _) ?_ hothers
      have hlookup := (addClient_lookup d' event.clientInstanceId (restartedWindow d event)
        event.clientInstanceId).trans (if_pos rfl)
      rw [recordOf_some hlookup, restartedWindow, hadmitted]
      exact (fileInFlight_lookup _).trans (if_pos rfl)

theorem recordOf_settle (h : Core d) (event : Event)
    (hid : event.eventId ≠ [])
    (hflight : recordOf d event.clientInstanceId event.eventId = some (.inFlight seq ty))
    (outcome : EventOutcomeRecord) (c id : Bytes) :
    recordOf (settleEvent d event outcome).1 c id =
      if event.clientInstanceId = c ∧ event.eventId = id then some (.settled seq ty outcome)
      else recordOf d c id := by
  have honly := settleEvent_onlyWindow h event outcome
  obtain ⟨w, hc, hr⟩ := Option.bind_eq_some_iff.mp hflight
  have hown := honly.own
  rw [hc, Option.map_some, whenNamed, if_neg hid] at hown
  rcases eq_or_ne c event.clientInstanceId with rfl | hne
  · rw [recordOf_some hown, recordOf_some hc,
      (settle_inFlight (h.windows _ _ hc) outcome hr).1.lookup]
    simp only [true_and]
  · rw [if_neg fun hboth => hne hboth.1.symm, recordOf, honly.others c hne, recordOf]

theorem recordOf_abandon (h : Core d) (event : Event)
    (hid : event.eventId ≠ [])
    (hflight : recordOf d event.clientInstanceId event.eventId = some (.inFlight seq ty))
    (c id : Bytes) :
    recordOf (abandonEvent d event) c id =
      if event.clientInstanceId = c ∧ event.eventId = id then none else recordOf d c id := by
  have honly := abandonEvent_onlyWindow h event
  obtain ⟨w, hc, hr⟩ := Option.bind_eq_some_iff.mp hflight
  have hown := honly.own
  rw [hc, Option.map_some, whenNamed, if_neg hid] at hown
  rcases eq_or_ne c event.clientInstanceId with rfl | hne
  · rw [recordOf_some hown, recordOf_some hc]
    simp only [abandon, hr, getElem?_drop, true_and]
  · rw [if_neg fun hboth => hne hboth.1.symm, recordOf, honly.others c hne, recordOf]

theorem abandoned_fresh (h : Core d) (event : Event) (hid : event.eventId ≠ [])
    (hflight : recordOf d event.clientInstanceId event.eventId =
      some (.inFlight event.eventSeq event.eventType)) :
    ∃ last, (admitEvent (abandonEvent d event) event).2 = .ok (.fresh last) := by
  have honly := abandonEvent_onlyWindow h event
  obtain ⟨w, hc, hr⟩ := Option.bind_eq_some_iff.mp hflight
  have hw := h.windows _ _ hc
  have hown := honly.own
  rw [hc, Option.map_some, whenNamed, if_neg hid] at hown
  have hok : Admissible d.maxEntriesPerClient (abandon w event.eventId) event.eventId
      event.eventSeq := by
    have habove := hw.inFlight_above _ _ _ hr
    have hwithin := hw.within _ _ hr
    simp only [abandon, hr]
    refine ⟨?_, ?_, habove, hwithin⟩
    · simp only [getElem?_drop, if_true]
    · simp only [getElem?_drop, if_true]
  have hfresh := hok.admit_fresh (abandon_windowInv hw _) h.entries_pos event.eventType
  refine ⟨(abandon w event.eventId).lastContiguousProcessedSeq, ?_⟩
  rw [admitEvent, if_neg hid, hown]
  simp only [honly.entries]
  exact hfresh

end Srui.EventDedupe.EventRecords

import Srui.EventDedupe.Delivery
import Srui.EventDedupe.EventRecords
import Srui.Sessiond.EventCalls
import Srui.Sessiond.PendingCancellations

/-!
What the cancellation of pending text edits leaves of the other events, and how it answers the
edits it has canceled.
-/

namespace Srui.Sessiond.PendingCancellations

open Basic.FiniteMaps Basic.Runs EventDedupe.Windows EventDedupe.Deduplicators
open EventDedupe.WindowInvariant EventDedupe.Representation EventDedupe.EventRecords
open EventDedupe.Delivery SemanticTree.Events Sessiond.EventProcessing Sessiond.EventCalls

variable {d d' : EventDeduplicator} {client : Bytes} {outcome : EventOutcomeRecord}
  {validated : ValidatedPendingTextEditRef}

def canceledRecord (client : Bytes) (outcome : EventOutcomeRecord)
    (validated : ValidatedPendingTextEditRef) : EventRecord :=
  .settled validated.reference.eventSeq (placeholder client validated).eventType outcome

/-- One round: no record changes, or the identity was new, is settled now, and no other record
does more than fade. -/
inductive Staged (d : EventDeduplicator) (client : Bytes) (outcome : EventOutcomeRecord)
    (validated : ValidatedPendingTextEditRef) : EventDeduplicator → Prop where
  | kept {d' : EventDeduplicator} (hd' : d' = (admitEvent d (placeholder client validated)).1)
      (hnot : ∀ last, (admitEvent d (placeholder client validated)).2 ≠ .ok (.fresh last))
      (hrecords : ∀ c id, recordOf d' c id = recordOf d c id) : Staged d client outcome validated d'
  | canceled {d' : EventDeduplicator} {last : Nat}
      (hfresh : (admitEvent d (placeholder client validated)).2 = .ok (.fresh last))
      (hd' : d' = (settleEvent (admitEvent d (placeholder client validated)).1
        (placeholder client validated) outcome).1)
      (habsent : recordOf d client validated.dedupeEventId = none)
      (hown : recordOf d' client validated.dedupeEventId =
        some (canceledRecord client outcome validated))
      (hothers : ∀ c id, ¬(client = c ∧ validated.dedupeEventId = id) →
        Fades (recordOf d c id) (recordOf d' c id)) : Staged d client outcome validated d'

theorem stageCancellation_staged (h : Core d) (client : Bytes) (outcome : EventOutcomeRecord)
    (validated : ValidatedPendingTextEditRef) :
    Staged d client outcome validated (stageCancellation client outcome d validated) := by
  have hadmission := admitEvent_admission h (placeholder client validated)
  have hcore := h.admitEvent (placeholder client validated)
  unfold stageCancellation
  rcases hresult : admitEvent d (placeholder client validated) with ⟨admitted, result⟩
  rw [hresult] at hadmission hcore
  dsimp only at hadmission hcore
  cases hadmission with
  | refused hrecords | pending hrecords =>
    exact .kept (by rw [hresult]) (by rw [hresult]; exact nofun) hrecords
  | duplicate hprior hrecords =>
    exact .kept (by rw [hresult]) (by rw [hresult]; exact nofun) hrecords
  | fresh hid habsent hflight hothers =>
    have hsettled := recordOf_settle hcore (placeholder client validated) hid hflight outcome
    refine .canceled (by rw [hresult]) (by rw [hresult]) habsent ?_ fun c id hother => ?_
    · exact (hsettled client validated.dedupeEventId).trans (if_pos ⟨rfl, rfl⟩)
    · have hsame := (hsettled c id).trans (if_neg hother)
      rw [show recordOf _ c id = recordOf admitted c id from hsame]
      exact hothers c id hother

theorem stageCancellation_core (h : Core d) (client : Bytes) (outcome : EventOutcomeRecord)
    (validated : ValidatedPendingTextEditRef) :
    Core (stageCancellation client outcome d validated) := by
  have hcore := h.admitEvent (placeholder client validated)
  cases stageCancellation_staged h client outcome validated with
  | kept hd' hnot hrecords =>
    rw [hd']
    exact hcore
  | canceled hfresh hd' habsent hown hothers =>
    rw [hd']
    exact (settleEvent_onlyWindow hcore _ outcome).core

theorem stageCancellations_cons (rest : List ValidatedPendingTextEditRef) :
    stageCancellations client outcome d (validated :: rest) =
      stageCancellations client outcome (stageCancellation client outcome d validated) rest :=
  rfl

theorem stageCancellations_append (earlier later : List ValidatedPendingTextEditRef) :
    stageCancellations client outcome d (earlier ++ later) =
      stageCancellations client outcome (stageCancellations client outcome d earlier) later :=
  List.foldl_append

theorem stageCancellations_invariant (client : Bytes) (outcome : EventOutcomeRecord)
    {P : EventDeduplicator → Prop}
    (hstep : ∀ d validated, Core d → P d → P (stageCancellation client outcome d validated))
    (h : Core d) (hd : P d) (refs : List ValidatedPendingTextEditRef) :
    Core (stageCancellations client outcome d refs) ∧
      P (stageCancellations client outcome d refs) := by
  induction refs generalizing d with
  | nil => exact ⟨h, hd⟩
  | cons validated rest ih => exact ih (stageCancellation_core h _ _ _) (hstep d validated h hd)

section Records

variable {seq : Nat} {c id : Bytes}

theorem stageCancellation_inFlight (h : Core d) {ty : EventType}
    (hflight : recordOf d c id = some (.inFlight seq ty)) :
    recordOf (stageCancellation client outcome d validated) c id = some (.inFlight seq ty) := by
  cases stageCancellation_staged h client outcome validated with
  | kept hd' hnot hrecords => rw [hrecords, hflight]
  | canceled hfresh hd' habsent hown hothers =>
    refine (hothers c id ?_).inFlight hflight
    rintro ⟨rfl, rfl⟩
    rw [habsent] at hflight
    cases hflight

/-- The client keeps its window, and a sequence that the window covers stays covered. -/
def CoveredFor (client : Bytes) (seq : Nat) (d : EventDeduplicator) : Prop :=
  ∃ w : ClientDedupeWindow, d.clients[client]? = some w ∧ Covered w seq

theorem CoveredFor.refuses (h : CoveredFor client seq d) : Refuses client seq d :=
  .inl h

theorem admitEvent_coveredFor (h : Core d) (event : Event)
    (hcovered : CoveredFor event.clientInstanceId seq d) :
    CoveredFor event.clientInstanceId seq (admitEvent d event).1 := by
  obtain ⟨w, hc, hseq⟩ := hcovered
  have hown := (admitEvent_onlyWindow h hc).own
  rw [hc, Option.map_some] at hown
  refine ⟨_, hown, ?_⟩
  exact (whenNamed_covered (admit_covered (h.windows _ _ hc) h.entries_pos _ _ _ _)).mpr hseq

theorem settleEvent_coveredFor (h : Core d) {event : Event}
    (hcovered : CoveredFor c seq d) (outcome : EventOutcomeRecord) :
    CoveredFor c seq (settleEvent d event outcome).1 := by
  obtain ⟨w, hc, hseq⟩ := hcovered
  have honly := settleEvent_onlyWindow h event outcome
  rcases eq_or_ne c event.clientInstanceId with rfl | hne
  · have hown := honly.own
    rw [hc, Option.map_some] at hown
    refine ⟨_, hown, ?_⟩
    unfold whenNamed
    split
    · exact hseq
    · exact settle_covered (h.windows _ _ hc) _ _ hseq
  · exact ⟨w, (honly.others c hne).trans hc, hseq⟩

theorem stageCancellation_coveredFor (h : Core d) (hcovered : CoveredFor client seq d) :
    CoveredFor client seq (stageCancellation client outcome d validated) := by
  have hadmitted := admitEvent_coveredFor h (placeholder client validated) hcovered
  cases stageCancellation_staged h client outcome validated with
  | kept hd' hnot hrecords =>
    rw [hd']
    exact hadmitted
  | canceled hfresh hd' habsent hown hothers =>
    rw [hd']
    exact settleEvent_coveredFor (h.admitEvent _) hadmitted outcome

theorem coveredFor_of_settled (h : Core d) {ty : EventType}
    {prior : EventOutcomeRecord} (hsettled : recordOf d c id = some (.settled seq ty prior)) :
    CoveredFor c seq d := by
  obtain ⟨w, hc, hid⟩ := Option.bind_eq_some_iff.mp hsettled
  exact ⟨w, hc, (h.windows _ _ hc).covered_of_settled hid⟩

/-- A settled record under its own sequence is the record that was there; a new one has a new
sequence. -/
structure Unchanged (client c id : Bytes) (seq : Nat) (record : EventRecord)
    (d : EventDeduplicator) : Prop where
  covered : c = client → CoveredFor client seq d
  same : ∀ other, recordOf d c id = some other → other.eventSeq = seq → other = record

theorem Unchanged.stage {record : EventRecord}
    (h : Unchanged client c id seq record d) (hcore : Core d) :
    Unchanged client c id seq record (stageCancellation client outcome d validated) := by
  refine ⟨fun hclient => stageCancellation_coveredFor hcore (h.covered hclient), ?_⟩
  intro other hother hseq
  cases stageCancellation_staged hcore client outcome validated with
  | kept hd' hnot hrecords =>
    rw [hrecords] at hother
    exact h.same other hother hseq
  | canceled hfresh hd' habsent hown hothers =>
    rcases Decidable.em (client = c ∧ validated.dedupeEventId = id) with ⟨rfl, rfl⟩ | hne
    · -- The new record has a sequence that the window did not cover.
      rw [hown, Option.some.injEq] at hother
      rw [← hother] at hseq
      have hrefuses := (h.covered rfl).refuses
      rw [← hseq] at hrefuses
      exact absurd hfresh (hrefuses.not_fresh hcore _)
    · rcases hothers c id hne with hsame | ⟨hnone, -⟩
      · rw [hsame] at hother
        exact h.same other hother hseq
      · rw [hnone] at hother
        cases hother

end Records

section Frontiers

theorem lastContiguous_window {c : Bytes} {w : ClientDedupeWindow} (hc : d.clients[c]? = some w) :
    lastContiguousProcessedSeq d c = w.lastContiguousProcessedSeq := by
  unfold lastContiguousProcessedSeq
  rw [hc]

theorem lastContiguous_none {c : Bytes} (hc : d.clients[c]? = none) :
    lastContiguousProcessedSeq d c = restartFrontier d c := by
  unfold lastContiguousProcessedSeq restartFrontier
  rw [hc]

theorem admitEvent_own_frontier (h : Core d) (event : Event) :
    lastContiguousProcessedSeq (admitEvent d event).1 event.clientInstanceId =
      lastContiguousProcessedSeq d event.clientInstanceId := by
  obtain ⟨-, heq⟩ | ⟨-, w, hc, heq⟩ | ⟨-, hc, e, -, heq⟩ | ⟨-, hc, made, -, -, heq⟩ :=
    admitEvent_cases h event
  · rw [heq]
  · rw [heq, lastContiguous_window hc]
    rw [lastContiguous_window ((touchPut_lookup _ _ _ _).trans (if_pos rfl))]
    exact admit_frontier (h.windows _ _ hc) h.entries_pos _ _ _
  · rw [heq, lastContiguous_none hc]
    have habsent : (retainFrontier (withoutFrontier d event.clientInstanceId)
        event.clientInstanceId (restartFrontier d event.clientInstanceId)).clients[
          event.clientInstanceId]? = none := by
      rw [retainFrontier_clients]
      exact hc
    rw [lastContiguous_none habsent]
    rcases Nat.eq_zero_or_pos (restartFrontier d event.clientInstanceId) with hzero | hpos
    · rw [hzero, retainFrontier_zero, restartFrontier, withoutFrontier_own]
      rfl
    · rw [restartFrontier, (retainFrontier_retained (h.withoutFrontier _) _ (by omega)).own]
      rfl
  · rw [heq, lastContiguous_none hc]
    rw [lastContiguous_window ((addClient_lookup _ _ _ _).trans (if_pos rfl))]
    exact admit_frontier (windowInv_startingAt _ _) h.entries_pos _ _ _

theorem settleEvent_frontier (h : Core d) (event : Event) (outcome : EventOutcomeRecord)
    (c : Bytes) :
    lastContiguousProcessedSeq d c ≤
      lastContiguousProcessedSeq (settleEvent d event outcome).1 c := by
  have honly := settleEvent_onlyWindow h event outcome
  rcases eq_or_ne c event.clientInstanceId with rfl | hne
  · rcases hc : d.clients[event.clientInstanceId]? with _ | w
    · have hnone := honly.own
      rw [hc, Option.map_none] at hnone
      rw [lastContiguous_none hc, lastContiguous_none hnone, restartFrontier, restartFrontier,
        honly.frontiers]
    · have hown := honly.own
      rw [hc, Option.map_some] at hown
      rw [lastContiguous_window hc, lastContiguous_window hown]
      unfold whenNamed
      split
      · exact Nat.le_refl _
      · dsimp only
        rcases hid : w.seenIds[event.eventId]? with _ | record
        · rw [settle_not_inFlight outcome (by rw [hid]; simp)]
        · cases record with
          | inFlight seq ty => exact (settle_inFlight (h.windows _ _ hc) outcome hid).1.frontier_le
          | settled seq ty prior =>
            rw [settle_not_inFlight outcome (by rw [hid]; simp)]
  · have hsame := honly.others c hne
    rcases hc : d.clients[c]? with _ | w
    · rw [lastContiguous_none hc, lastContiguous_none (hsame.trans hc), restartFrontier,
        restartFrontier, honly.frontiers]
    · rw [lastContiguous_window hc, lastContiguous_window (hsame.trans hc)]

theorem retainFrontier_restores (h : Core d) (client : Bytes) {c : Bytes} (hne : c ≠ client) :
    (retainFrontier (withoutFrontier d client) client (restartFrontier d client)).evictedFrontiers[
      c]? = d.evictedFrontiers[c]? := by
  rcases Nat.eq_zero_or_pos (restartFrontier d client) with hzero | hpos
  · rw [hzero, retainFrontier_zero, withoutFrontier_other d hne]
  rw [(retainFrontier_retained (h.withoutFrontier client) client (by omega)).others c hne]
  rw [if_neg, withoutFrontier_other d hne]
  rintro ⟨-, hdropped⟩
  -- The frontier was retained, so without it the table has room.
  rcases hown : d.evictedFrontiers[client]? with _ | frontier
  · rw [restartFrontier, hown] at hpos
    exact absurd hpos (Nat.lt_irrefl 0)
  unfold droppedFrontier at hdropped
  split_ifs at hdropped with hfull
  have hlength := (h.withoutFrontier client).frontiers.length_eq_size
  have hsize : (d.evictedFrontiers.erase client).size = d.evictedFrontiers.size - 1 := by
    have := size_erase_of_present hown
    omega
  have hpositive : 0 < d.evictedFrontiers.size := by
    have := size_erase_of_present hown
    omega
  have hle := h.frontiers_le
  change (withoutFrontier d client).frontierOrder.length = d.maxClientWindows at hfull
  change _ = (d.evictedFrontiers.erase client).size at hlength
  omega

/-- A client whose frontier an admission may lower: it has no window, and the client of the
admission is given one although the windows are all taken. -/
structure MayForget (d : EventDeduplicator) (client c : Bytes) : Prop where
  newcomer : d.clients[client]? = none
  departed : d.clients[c]? = none
  full : d.maxClientWindows ≤ d.clients.size

theorem admitEvent_frontier (h : Core d) (event : Event) (c : Bytes) :
    lastContiguousProcessedSeq d c ≤ lastContiguousProcessedSeq (admitEvent d event).1 c ∨
      MayForget d event.clientInstanceId c ∧
        (admitEvent d event).1.clients[event.clientInstanceId]? ≠ none := by
  rcases eq_or_ne c event.clientInstanceId with rfl | hne
  · exact .inl (admitEvent_own_frontier h event).ge
  obtain ⟨-, heq⟩ | ⟨-, w, hc, heq⟩ | ⟨-, hc, e, -, heq⟩ | ⟨-, hc, made, hroom, -, heq⟩ :=
    admitEvent_cases h event
  · rw [heq]
    exact .inl (Nat.le_refl _)
  · refine .inl (le_of_eq ?_)
    rw [heq]
    unfold lastContiguousProcessedSeq
    rw [touchPut_lookup, if_neg (Ne.symm hne), touchPut_frontiers]
  · refine .inl (le_of_eq ?_)
    rw [heq]
    unfold lastContiguousProcessedSeq
    rw [retainFrontier_clients, retainFrontier_restores h _ hne]
    rfl
  · have hbystander := admitEvent_bystander h event hne
    rw [heq] at hbystander ⊢
    have hadmitted : (addClient made event.clientInstanceId (restartedWindow d event)).clients[
        event.clientInstanceId]? ≠ none := by
      rw [addClient_lookup, if_pos rfl]
      exact nofun
    rcases hdeparted : d.clients[c]? with _ | w
    · rcases Nat.lt_or_ge d.clients.size d.maxClientWindows with hspare | hfull
      · -- There is a slot to spare, so no window is evicted.
        have hroomy : (withoutFrontier d event.clientInstanceId).clients.size <
            (withoutFrontier d event.clientInstanceId).maxClientWindows := hspare
        rw [makeRoomForNewClient_room _ hroomy] at hroom
        obtain ⟨rfl, -⟩ := Prod.mk.inj hroom
        have hafter : (addClient (withoutFrontier d event.clientInstanceId)
            event.clientInstanceId (restartedWindow d event)).clients[c]? = none := by
          rw [addClient_lookup, if_neg (Ne.symm hne)]
          exact hdeparted
        refine .inl (le_of_eq ?_)
        rw [lastContiguous_none hdeparted, lastContiguous_none hafter, restartFrontier,
          restartFrontier, ← withoutFrontier_other d hne]
        rfl
      · exact .inr ⟨⟨hc, hdeparted, hfull⟩, hadmitted⟩
    · refine .inl ?_
      rw [lastContiguous_window hdeparted]
      rcases hbystander with ⟨hclients, -⟩ | ⟨w', hw', -, hnone, hretained⟩
      · rw [lastContiguous_window (hclients.trans hdeparted)]
      · obtain rfl := Option.some.inj (hw'.symm.trans hdeparted)
        rw [lastContiguous_none hnone, restartFrontier]
        rcases Nat.eq_zero_or_pos w'.lastContiguousProcessedSeq with hzero | hpos
        · omega
        · rw [hretained (by omega)]
          exact Nat.le_refl _

theorem admitEvent_refused_clients (h : Core d) (event : Event)
    (habsent : (admitEvent d event).1.clients[event.clientInstanceId]? = none) :
    (admitEvent d event).1.clients = d.clients ∧
      (admitEvent d event).1.maxClientWindows = d.maxClientWindows := by
  obtain ⟨-, heq⟩ | ⟨-, w, hc, heq⟩ | ⟨-, hc, e, -, heq⟩ | ⟨-, hc, made, -, -, heq⟩ :=
    admitEvent_cases h event
  · rw [heq]
    exact ⟨rfl, rfl⟩
  · rw [heq, touchPut_lookup, if_pos rfl] at habsent
    cases habsent
  · rw [heq]
    exact ⟨retainFrontier_clients _ _ _, (retainFrontier_limits _ _ _).1⟩
  · rw [heq, addClient_lookup, if_pos rfl] at habsent
    cases habsent

theorem stageCancellation_frontier (h : Core d) (validated : ValidatedPendingTextEditRef)
    (outcome : EventOutcomeRecord) (c : Bytes) :
    lastContiguousProcessedSeq d c ≤
        lastContiguousProcessedSeq (stageCancellation client outcome d validated) c ∨
      MayForget d client c := by
  have hadmitted := admitEvent_frontier h (placeholder client validated) c
  cases stageCancellation_staged h client outcome validated with
  | kept hd' hnot hrecords =>
    rw [hd']
    exact hadmitted.imp id And.left
  | canceled hfresh hd' habsent hown hothers =>
    rw [hd']
    have hsettled := settleEvent_frontier (h.admitEvent (placeholder client validated))
      (placeholder client validated) outcome c
    exact hadmitted.imp (fun hle => hle.trans hsettled) And.left

theorem stageCancellation_clients (h : Core d)
    (habsent : (stageCancellation client outcome d validated).clients[client]? = none) :
    (stageCancellation client outcome d validated).clients = d.clients ∧
      (stageCancellation client outcome d validated).maxClientWindows = d.maxClientWindows := by
  cases stageCancellation_staged h client outcome validated with
  | kept hd' hnot hrecords =>
    rw [hd'] at habsent ⊢
    exact admitEvent_refused_clients h _ habsent
  | canceled hfresh hd' hnew hown hothers =>
    rw [recordOf_none habsent] at hown
    cases hown

theorem stageCancellations_frontier (h : Core d) (refs : List ValidatedPendingTextEditRef)
    (c : Bytes) :
    lastContiguousProcessedSeq d c ≤
        lastContiguousProcessedSeq (stageCancellations client outcome d refs) c ∨
      MayForget d client c := by
  induction refs generalizing d with
  | nil => exact .inl (Nat.le_refl _)
  | cons validated rest ih =>
    rw [stageCancellations_cons]
    rcases stageCancellation_frontier h validated outcome c with hle | hforgets
    · rcases ih (stageCancellation_core h _ _ _) with hrest | ⟨hnewcomer, hdeparted, hfull⟩
      · exact .inl (hle.trans hrest)
      · obtain ⟨hclients, hlimit⟩ := stageCancellation_clients h hnewcomer
        rw [hclients] at hnewcomer hdeparted hfull
        rw [hlimit] at hfull
        exact .inr ⟨hnewcomer, hdeparted, hfull⟩
    · exact .inr hforgets

end Frontiers

section Replays

theorem admitEvent_absent (h : Core d) (event : Event)
    (habsent : recordOf d event.clientInstanceId event.eventId = none) :
    (∃ last, (admitEvent d event).2 = .ok (.fresh last)) ∨
      ∃ e, (admitEvent d event).2 = .error e := by
  obtain ⟨-, heq⟩ | ⟨-, w, hc, heq⟩ | ⟨-, -, e, -, heq⟩ | ⟨-, -, made, -, -, heq⟩ :=
    admitEvent_cases h event
  · exact .inr ⟨_, congrArg Prod.snd heq⟩
  · rw [recordOf_some hc] at habsent
    obtain ⟨r, hr, -⟩ | ⟨-, -, e, -, hrefused⟩ | ⟨-, hadmitted⟩ := admit_cases
      (h.windows _ _ hc) h.entries_pos event.eventId event.eventSeq event.eventType
    · rw [habsent] at hr
      cases hr
    · exact .inr ⟨e, (congrArg Prod.snd heq).trans (congrArg Prod.snd hrefused)⟩
    · exact .inl ⟨_, (congrArg Prod.snd heq).trans (congrArg Prod.snd hadmitted)⟩
  · exact .inr ⟨_, congrArg Prod.snd heq⟩
  · exact .inl ⟨_, congrArg Prod.snd heq⟩

/-- The replay of a canceled edit is a duplicate of its rejection; once its record is evicted, the
replay is refused. -/
inductive Answered (d : EventDeduplicator) (client : Bytes) (outcome : EventOutcomeRecord)
    (validated : ValidatedPendingTextEditRef) : Prop where
  | duplicate (last : Nat)
      (hanswer : (admitEvent d (placeholder client validated)).2 = .ok (.duplicate outcome last))
  | evicted (e : EventSequenceError)
      (hevicted : recordOf d client validated.dedupeEventId = none)
      (hanswer : (admitEvent d (placeholder client validated)).2 = .error e)

structure Canceled (client : Bytes) (outcome : EventOutcomeRecord)
    (validated : ValidatedPendingTextEditRef) (d : EventDeduplicator) : Prop where
  covered : CoveredFor client validated.reference.eventSeq d
  record : recordOf d client validated.dedupeEventId =
      some (canceledRecord client outcome validated) ∨
    recordOf d client validated.dedupeEventId = none

theorem Canceled.answered (h : Canceled client outcome validated d) (hcore : Core d)
    (hnamed : validated.dedupeEventId ≠ []) : Answered d client outcome validated := by
  rcases h.record with hheld | hnone
  · obtain ⟨w, hc, hid⟩ := Option.bind_eq_some_iff.mp hheld
    have hrecords : Records client validated.dedupeEventId
        (canceledRecord client outcome validated) d :=
      ⟨w, hc, hid⟩
    exact .duplicate _ (hrecords.duplicate hnamed)
  · rcases admitEvent_absent hcore (placeholder client validated) hnone with
      ⟨last, hfresh⟩ | ⟨e, herror⟩
    · exact absurd hfresh (Refuses.not_fresh h.covered.refuses hcore last)
    · exact .evicted e hnone herror

theorem Canceled.stage (h : Canceled client outcome validated d) (hcore : Core d)
    {other : ValidatedPendingTextEditRef} (hother : other.dedupeEventId ≠ validated.dedupeEventId) :
    Canceled client outcome validated (stageCancellation client outcome d other) := by
  refine ⟨stageCancellation_coveredFor hcore h.covered, ?_⟩
  cases stageCancellation_staged hcore client outcome other with
  | kept hd' hnot hrecords =>
    rw [hrecords]
    exact h.record
  | canceled hfresh hd' habsent hown hothers =>
    rcases hothers client validated.dedupeEventId fun hsame => hother hsame.2 with
      hsame | ⟨hnone, -⟩
    · rw [hsame]
      exact h.record
    · exact .inr hnone

theorem Canceled.stages (h : Canceled client outcome validated d) (hcore : Core d)
    {refs : List ValidatedPendingTextEditRef}
    (hothers : ∀ other ∈ refs, other.dedupeEventId ≠ validated.dedupeEventId) :
    Canceled client outcome validated (stageCancellations client outcome d refs) := by
  induction refs generalizing d with
  | nil => exact h
  | cons other rest ih =>
    have hstage := h.stage hcore (hothers other List.mem_cons_self)
    refine ih hstage (stageCancellation_core hcore _ _ _) ?_
    exact fun next hmem => hothers next (List.mem_cons_of_mem _ hmem)

theorem stageCancellation_canceled (h : Core d) (outcome : EventOutcomeRecord) {last : Nat}
    (hfresh : (admitEvent d (placeholder client validated)).2 = .ok (.fresh last)) :
    Canceled client outcome validated (stageCancellation client outcome d validated) := by
  have hcore := stageCancellation_core h client outcome validated
  cases stageCancellation_staged h client outcome validated with
  | kept hd' hnot hrecords => exact absurd hfresh (hnot last)
  | canceled hnew hd' habsent hown hothers => exact ⟨coveredFor_of_settled hcore hown, .inl hown⟩

end Replays

structure Safe (env : Externals) (inner : SessionInner) (client : Bytes)
    (raw : List PendingTextEditRef) (refs : List ValidatedPendingTextEditRef)
    (cancellation : PendingTextEditCancellation) : Prop where
  inFlight : ∀ c id seq ty, recordOf inner.dedupe c id = some (.inFlight seq ty) →
    recordOf cancellation.stagedDedupe c id = some (.inFlight seq ty)
  settled : ∀ c id seq ty outcome,
    recordOf inner.dedupe c id = some (.settled seq ty outcome) →
      ∀ record, recordOf cancellation.stagedDedupe c id = some record → record.eventSeq = seq →
        record = .settled seq ty outcome
  frontier : ∀ c, lastContiguousProcessedSeq inner.dedupe c ≤
      lastContiguousProcessedSeq cancellation.stagedDedupe c ∨ MayForget inner.dedupe client c
  replays : ∀ earlier validated later, refs = earlier ++ validated :: later →
    ∀ last, (admitEvent (stageCancellations client (canceledOutcome inner) inner.dedupe earlier)
        (placeholder client validated)).2 = .ok (.fresh last) →
      Answered cancellation.stagedDedupe client (canceledOutcome inner) validated
  discarded : cancellation.discarded = raw.map (boundedReference env)
  bounded : ∀ reference ∈ cancellation.discarded, reference.eventId.length ≤ maxEventIdBytes
  distinct : (cancellation.discarded.map (·.eventId)).Nodup

/-- The cancellation of references that were accepted is safe in every state of a session. -/
theorem pending_cancellation_safe (env : Externals)
    (hdigest : ∀ eventId, (env.digest eventId).length = 16) (maxEntries maxWindows : Nat)
    (calls : List Call) (inner : SessionInner)
    (hreached : inner.dedupe = run callStep (.withLimits maxEntries maxWindows) calls)
    (client : Bytes) (raw : List PendingTextEditRef) (refs : List ValidatedPendingTextEditRef)
    (hvalid : validatePendingTextEditRefs env raw = .ok refs) :
    Safe env inner client raw refs (preparePendingTextEditCancellation inner client refs) := by
  have hcore : Core inner.dedupe := by
    rw [hreached]
    exact run_core (core_withLimits maxEntries maxWindows) calls
  have haccepted := validatePendingTextEditRefs_accepted hvalid
  constructor
  · intro c id seq ty hflight
    exact (stageCancellations_invariant _ _
      (P := fun d => recordOf d c id = some (.inFlight seq ty))
      (fun _ _ h => stageCancellation_inFlight h) hcore hflight refs).2
  · intro c id seq ty outcome hsettled record hrecord hseq
    have hstart : Unchanged client c id seq (.settled seq ty outcome) inner.dedupe := by
      refine ⟨fun hclient => hclient ▸ coveredFor_of_settled hcore hsettled, ?_⟩
      intro other hother _
      rw [hsettled] at hother
      exact (Option.some.inj hother).symm
    have hend := (stageCancellations_invariant client (canceledOutcome inner)
      (fun _ _ h hunchanged => hunchanged.stage h) hcore hstart
      refs).2
    exact hend.same record hrecord hseq
  · exact stageCancellations_frontier hcore refs
  · rintro earlier validated later rfl last hfresh
    have hbefore := (stageCancellations_invariant client (canceledOutcome inner)
      (P := fun _ => True) (fun _ _ _ _ => trivial) hcore
      trivial earlier).1
    have hcanceled := stageCancellation_canceled hbefore (canceledOutcome inner) hfresh
    have hothers : ∀ other ∈ later, other.dedupeEventId ≠ validated.dedupeEventId := by
      have hdistinct := haccepted.dedupeDistinct
      rw [List.map_append, List.map_cons] at hdistinct
      have hlater := (List.nodup_cons.mp (List.nodup_append.mp hdistinct).2.1).1
      intro other hmem hsame
      exact hlater (List.mem_map.mpr ⟨other, hmem, hsame⟩)
    have hafter := stageCancellation_core hbefore client (canceledOutcome inner) validated
    have hlast := hcanceled.stages hafter hothers
    have hstaged : Core (stageCancellations client (canceledOutcome inner)
        (stageCancellation client (canceledOutcome inner)
          (stageCancellations client (canceledOutcome inner) inner.dedupe earlier) validated)
        later) :=
      (stageCancellations_invariant _ _ (P := fun _ => True) (fun _ _ _ _ => trivial) hafter trivial
        later).1
    have hanswered := hlast.answered hstaged
      (haccepted.named validated (List.mem_append_right _ List.mem_cons_self))
    change Answered (stageCancellations client (canceledOutcome inner) inner.dedupe
      (earlier ++ validated :: later)) client (canceledOutcome inner) validated
    rw [stageCancellations_append]
    exact hanswered
  · exact haccepted.echoed
  · intro reference hmem
    change reference ∈ refs.map (·.reference) at hmem
    rw [haccepted.echoed] at hmem
    obtain ⟨original, -, rfl⟩ := List.mem_map.mp hmem
    exact length_responseEventId hdigest original
  · change ((refs.map (·.reference)).map (·.eventId)).Nodup
    rw [List.map_map]
    exact haccepted.responseDistinct

def shortDigests : Externals :=
  ⟨fun _ => "", fun _ => "", fun _ => "", fun _ => "", fun _ => List.replicate 16 0⟩

def sessionAfter (calls : List Call) : SessionInner :=
  { (opened .default 8 8 1 8).inner with dedupe := run callStep (.withLimits 8 1) calls }

def processed (client : Bytes) (eventSeq : Nat) : Call :=
  .admitAndSettle ⟨client, eventSeq, [UInt8.ofNat eventSeq], none⟩ ⟨true, 0, ""⟩

def pendingRef (eventSeq : Nat) : PendingTextEditRef :=
  ⟨[UInt8.ofNat eventSeq], eventSeq, 2, 1⟩

def validatedRef (eventSeq : Nat) : ValidatedPendingTextEditRef :=
  ⟨pendingRef eventSeq, [UInt8.ofNat eventSeq], ⟨1, Nat.one_pos⟩⟩

def behindTwo : SessionInner :=
  sessionAfter ((List.range' 3 6).map (processed [65]))

def departedOne : SessionInner :=
  sessionAfter [processed [65] 1, processed [66] 1]

theorem pending_cancellation_safe_behindTwo :
    Safe shortDigests behindTwo [65] [pendingRef 1, pendingRef 9, pendingRef 2]
      [validatedRef 1, validatedRef 9, validatedRef 2]
      (preparePendingTextEditCancellation behindTwo [65]
        [validatedRef 1, validatedRef 9, validatedRef 2]) :=
  pending_cancellation_safe shortDigests (fun _ => List.length_replicate) 8 1
    ((List.range' 3 6).map (processed [65])) behindTwo rfl [65] _ _ (by decide +kernel)

/-- A resuming client without a window costs a client that left its frontier, and an edit that was
canceled is not answered as a duplicate when the others have closed the gap before it. -/
theorem cancellation_forgets :
    (validatePendingTextEditRefs shortDigests [pendingRef 1] = .ok [validatedRef 1] ∧
      lastContiguousProcessedSeq departedOne.dedupe [65] = 1 ∧
      lastContiguousProcessedSeq (preparePendingTextEditCancellation departedOne [67]
        [validatedRef 1]).stagedDedupe [65] = 0) ∧
    (validatePendingTextEditRefs shortDigests [pendingRef 1, pendingRef 9, pendingRef 2] =
        .ok [validatedRef 1, validatedRef 9, validatedRef 2] ∧
      (admitEvent behindTwo.dedupe (placeholder [65] (validatedRef 1))).2 = .ok (.fresh 0) ∧
      (admitEvent (preparePendingTextEditCancellation behindTwo [65]
          [validatedRef 1, validatedRef 9, validatedRef 2]).stagedDedupe
        (placeholder [65] (validatedRef 1))).2 = .error (.outsideReceiveWindow 1 10 17)) := by
  decide +kernel

end Srui.Sessiond.PendingCancellations

import Srui.Sessiond.EventProcessing

/-!
The cancellation of the text edits that a client has pending when it resumes the session: its
references are checked, and each identity that is new is settled as rejected in a copy of the
deduplicator.
-/

namespace Srui.Sessiond.PendingCancellations

open EventDedupe.Windows EventDedupe.Deduplicators SemanticTree.Events Sessiond.EventProcessing

structure PendingTextEditRef where
  eventId : Bytes
  eventSeq : Nat
  nodeId : Nat
  editSeq : Nat
deriving DecidableEq, Repr

structure ValidatedPendingTextEditRef where
  reference : PendingTextEditRef
  dedupeEventId : Bytes
  editSeq : EditSeq
deriving DecidableEq

/-- `MAX_TEXT_EDIT_STREAMS`. -/
def maxTextEditStreams : Nat := 1024

def oversizedMarker : Bytes := "srui-rejected-oversized:".toList.map fun c => UInt8.ofNat c.toNat

/-- `bounded_rejected_event_id`. -/
def boundedRejectedEventId (env : Externals) (eventSeq : Nat) (eventId : Bytes) : Bytes :=
  oversizedMarker ++ bigEndian eventSeq ++ env.digest eventId

def dedupeEventId (env : Externals) (reference : PendingTextEditRef) : Bytes :=
  if maxEventIdBytes < reference.eventId.length then
    oversizedEventDedupeId env reference.eventSeq reference.eventId
  else reference.eventId

def responseEventId (env : Externals) (reference : PendingTextEditRef) : Bytes :=
  if maxEventIdBytes < reference.eventId.length then
    boundedRejectedEventId env reference.eventSeq reference.eventId
  else reference.eventId

def boundedReference (env : Externals) (reference : PendingTextEditRef) : PendingTextEditRef :=
  { reference with eventId := responseEventId env reference }

local instance bytes_lawfulBEq : LawfulBEq Bytes := inferInstance

/-- Loop of `validate_pending_text_edit_refs`, with the identities seen so far. -/
def validateRefs (env : Externals) :
    List Bytes → List Bytes → List PendingTextEditRef →
      Except String (List ValidatedPendingTextEditRef)
  | _, _, [] => .ok []
  | seenDedupeIds, seenResponseIds, reference :: rest =>
    if reference.eventId = [] ∨ reference.eventSeq = 0 then
      .error "pending TEXT_EDIT ref is missing event_id or event_seq"
    else if dedupeEventId env reference ∈ seenDedupeIds ∨
        responseEventId env reference ∈ seenResponseIds then
      .error "pending_text_edits repeats a normalized event_id"
    else
      match EditSeq.new reference.editSeq with
      | none => .error "pending TEXT_EDIT ref requires a positive edit_seq"
      | some editSeq =>
        match validateRefs env (dedupeEventId env reference :: seenDedupeIds)
            (responseEventId env reference :: seenResponseIds) rest with
        | .error e => .error e
        | .ok validated =>
          .ok (⟨boundedReference env reference, dedupeEventId env reference, editSeq⟩ ::
            validated)

/-- `Session::validate_pending_text_edit_refs`. -/
def validatePendingTextEditRefs (env : Externals) (refs : List PendingTextEditRef) :
    Except String (List ValidatedPendingTextEditRef) :=
  if maxTextEditStreams < refs.length then
    .error ("pending_text_edits has " ++ refs.length.repr ++ " entries; at most " ++
      maxTextEditStreams.repr ++ " are accepted (§18.3, §26)")
  else validateRefs env [] [] refs

/-- `PendingTextEditCancellation`. -/
structure PendingTextEditCancellation where
  stagedDedupe : EventDeduplicator
  discarded : List PendingTextEditRef

def placeholder (clientInstanceId : Bytes) (validated : ValidatedPendingTextEditRef) : Event where
  clientInstanceId := clientInstanceId
  eventSeq := validated.reference.eventSeq
  eventId := validated.dedupeEventId
  eventType := some (eventTextEdit.namespaceId, eventTextEdit.localId)

def canceledOutcome (inner : SessionInner) : EventOutcomeRecord where
  accepted := false
  revisionAfterEffect := inner.session.store.revision
  rejectReason := boundDiagnosticString "canceled on same-session resync"
    inner.session.store.limits.maxStringLength

/-- One round of the loop of `prepare_pending_text_edit_cancellation`. -/
def stageCancellation (clientInstanceId : Bytes) (outcome : EventOutcomeRecord)
    (staged : EventDeduplicator) (validated : ValidatedPendingTextEditRef) : EventDeduplicator :=
  match admitEvent staged (placeholder clientInstanceId validated) with
  | (staged, .ok (.fresh _)) =>
    (settleEvent staged (placeholder clientInstanceId validated) outcome).1
  | (staged, _) => staged

def stageCancellations (clientInstanceId : Bytes) (outcome : EventOutcomeRecord)
    (staged : EventDeduplicator) (refs : List ValidatedPendingTextEditRef) : EventDeduplicator :=
  refs.foldl (stageCancellation clientInstanceId outcome) staged

/-- `Session::prepare_pending_text_edit_cancellation`. -/
def preparePendingTextEditCancellation (inner : SessionInner) (clientInstanceId : Bytes)
    (refs : List ValidatedPendingTextEditRef) : PendingTextEditCancellation where
  stagedDedupe := stageCancellations clientInstanceId (canceledOutcome inner) inner.dedupe refs
  discarded := refs.map (·.reference)

section Validation

variable {env : Externals} {raw : List PendingTextEditRef}
  {refs : List ValidatedPendingTextEditRef}

/-- What the loop accepts: the references echoed in order, with identities that are new. -/
structure Accepted (env : Externals) (seenDedupeIds seenResponseIds : List Bytes)
    (raw : List PendingTextEditRef) (refs : List ValidatedPendingTextEditRef) : Prop where
  echoed : refs.map (·.reference) = raw.map (boundedReference env)
  named : ∀ validated ∈ refs, validated.dedupeEventId ≠ []
  dedupeNew : ∀ validated ∈ refs, validated.dedupeEventId ∉ seenDedupeIds
  dedupeDistinct : (refs.map (·.dedupeEventId)).Nodup
  responseNew : ∀ validated ∈ refs, validated.reference.eventId ∉ seenResponseIds
  responseDistinct : (refs.map fun validated => validated.reference.eventId).Nodup

theorem dedupeEventId_ne_nil {reference : PendingTextEditRef} (h : reference.eventId ≠ []) :
    dedupeEventId env reference ≠ [] := by
  unfold dedupeEventId
  split
  · unfold oversizedEventDedupeId
    simp [maxEventIdBytes]
  · exact h

theorem validateRefs_accepted {seenDedupeIds seenResponseIds : List Bytes}
    (h : validateRefs env seenDedupeIds seenResponseIds raw = .ok refs) :
    Accepted env seenDedupeIds seenResponseIds raw refs := by
  induction raw generalizing seenDedupeIds seenResponseIds refs with
  | nil =>
    cases h
    exact ⟨rfl, by simp, by simp, List.nodup_nil, by simp, List.nodup_nil⟩
  | cons reference rest ih =>
    rw [validateRefs] at h
    split_ifs at h with hmissing hseen
    obtain ⟨hdedupe, hresponse⟩ := not_or.mp hseen
    split at h
    · cases h
    rename_i editSeq hedit
    split at h
    · cases h
    rename_i validated hrest
    cases h
    have haccepted := ih hrest
    constructor
    · rw [List.map_cons, List.map_cons, haccepted.echoed]
    · rintro other hmem
      rcases List.mem_cons.mp hmem with rfl | hmem
      · exact dedupeEventId_ne_nil fun hid => hmissing (.inl hid)
      · exact haccepted.named other hmem
    · rintro other hmem
      rcases List.mem_cons.mp hmem with rfl | hmem
      · exact hdedupe
      · exact fun hold => haccepted.dedupeNew other hmem (List.mem_cons_of_mem _ hold)
    · rw [List.map_cons, List.nodup_cons]
      refine ⟨fun hmem => ?_, haccepted.dedupeDistinct⟩
      obtain ⟨other, hother, hsame⟩ := List.mem_map.mp hmem
      exact haccepted.dedupeNew other hother (hsame ▸ List.mem_cons_self)
    · rintro other hmem
      rcases List.mem_cons.mp hmem with rfl | hmem
      · exact hresponse
      · exact fun hold => haccepted.responseNew other hmem (List.mem_cons_of_mem _ hold)
    · rw [List.map_cons, List.nodup_cons]
      refine ⟨fun hmem => ?_, haccepted.responseDistinct⟩
      obtain ⟨other, hother, hsame⟩ := List.mem_map.mp hmem
      exact haccepted.responseNew other hother (hsame ▸ List.mem_cons_self)

theorem validatePendingTextEditRefs_accepted
    (h : validatePendingTextEditRefs env raw = .ok refs) : Accepted env [] [] raw refs := by
  unfold validatePendingTextEditRefs at h
  split_ifs at h
  exact validateRefs_accepted h

@[simp] theorem length_bigEndian (n : Nat) : (bigEndian n).length = 8 := by
  simp [bigEndian]

theorem length_oversizedMarker : oversizedMarker.length = 24 := by decide

theorem length_responseEventId (hdigest : ∀ eventId, (env.digest eventId).length = 16)
    (reference : PendingTextEditRef) :
    (responseEventId env reference).length ≤ maxEventIdBytes := by
  unfold responseEventId
  split
  · unfold boundedRejectedEventId
    rw [List.length_append, List.length_append, length_oversizedMarker, length_bigEndian,
      hdigest]
    decide
  · omega

end Validation

end Srui.Sessiond.PendingCancellations

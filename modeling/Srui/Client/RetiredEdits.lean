import Srui.Basic.Runs
import Srui.Client.TextEditingSessions

/-!
When a snapshot of a local edit that was retired stays retired.

What a call does to the invalidation epoch of one node is said once; a snapshot is valid
as long as that epoch is its own.
-/

namespace Srui.Client.TextEditingSessions

open Std Basic.FiniteMaps Basic.Machine Basic.Runs
open SemanticTree.Values (NodeId)
open SemanticTree.Events (EditSeq)

def epochOf (session : TextEditingSession) (nodeID : NodeId) : Option Nat :=
  session.nodes[nodeID]?.map (·.invalidationEpoch)

/-! ### What a call does to the epoch of one node -/

inductive Effect where
  | keeps
  | bumps
  | removes
  | creates
deriving DecidableEq, Repr

def corrects (preserving : Bool) (state : NodeState) (published : String) : Bool :=
  decide (state.lastSubmittedValue ≠ some published) &&
    !(preserving && hasLocalWork state &&
      decide (state.lastKnownAuthoritative = some published)) &&
    hadDraft state

def appliesDeferred (state : NodeState) : Bool :=
  match state.deferredAuthoritative with
  | some deferred => corrects false state deferred
  | none => false

def effectOnState (session : TextEditingSession) (state : NodeState) : Call → Effect
  | .noteCanceled _ eventId => if state.assignedEventId = some eventId then .bumps else .keeps
  | .invalidateDraft _ => .bumps
  | .noteLocalValue _ _ composing _ =>
    if session.suppressingLocalEditsForResync || session.preservingLocalTextAcrossRemount ||
        composing then .keeps
    else if appliesDeferred state then .bumps
    else .keeps
  | .applyPublishedValue _ published =>
    if corrects session.preservingLocalTextAcrossRemount state published then .bumps else .keeps
  | .noteInvalidPublishedValue _ => if hadDraft state then .bumps else .keeps
  | .setComposing composing _ =>
    if session.suppressingLocalEditsForResync || session.preservingLocalTextAcrossRemount ||
        composing || !state.composing then .keeps
    else if appliesDeferred state then .bumps
    else .keeps
  | _ => .keeps

def Call.target : Call → Option NodeId
  | .noteAssigned event => if event.isTextEdit then some event.nodeId else none
  | .noteCanceled nodeID _ => some nodeID
  | .invalidateDraft nodeID => some nodeID
  | .noteLocalValue _ nodeID _ _ => some nodeID
  | .applyPublishedValue nodeID _ => some nodeID
  | .noteInvalidPublishedValue nodeID => some nodeID
  | .setComposing _ nodeID => some nodeID
  | _ => none

def givesState (session : TextEditingSession) : Call → Bool
  | .noteAssigned _ => true
  | .noteLocalValue _ _ _ _ => !session.suppressingLocalEditsForResync
  | .applyPublishedValue _ _ => true
  | .setComposing _ _ =>
    !session.suppressingLocalEditsForResync && !session.preservingLocalTextAcrossRemount
  | _ => false

def effectOn (session : TextEditingSession) (c : Call) (nodeID : NodeId) : Effect :=
  match c with
  | .resetForReplacementSession => .removes
  | .syncPresentNodes present => if nodeID ∈ present then .keeps else .removes
  | .discardUnresolvedEditsForResync => .bumps
  | c =>
    if c.target = some nodeID then
      match session.nodes[nodeID]? with
      | some state => effectOnState session state c
      | none => if givesState session c then .creates else .keeps
    else .keeps

def Effect.epoch : Effect → Option Nat → Option Nat
  | .keeps, epoch => epoch
  | .bumps, epoch => epoch.map bumped
  | .removes, _ => none
  | .creates, _ => some 0

variable {session : TextEditingSession} {nodeID n : NodeId} {state : NodeState}

theorem epochOf_setNode (session : TextEditingSession) (nodeID n : NodeId) (state : NodeState) :
    epochOf (setNode session nodeID state) n =
      if nodeID = n then some state.invalidationEpoch else epochOf session n := by
  rw [epochOf, setNode, getElem?_put]
  split
  · rfl
  · rfl

variable {epoch : Nat}

theorem epochOf_setNode_same (h : epochOf session nodeID = some epoch)
    (hsame : state.invalidationEpoch = epoch) (n : NodeId) :
    epochOf (setNode session nodeID state) n = epochOf session n := by
  rw [epochOf_setNode, hsame]
  split
  · rename_i heq
    rw [← heq, h]
  · rfl

theorem epochOf_of_some (h : session.nodes[nodeID]? = some state) :
    epochOf session nodeID = some state.invalidationEpoch := by
  rw [epochOf, h]
  rfl

@[simp] theorem epochOf_forgetOrder (session : TextEditingSession) (nodeID n : NodeId) :
    epochOf (forgetOrder session nodeID) n = epochOf session n := rfl

@[simp] theorem epochOf_bumpLaneEpoch (session : TextEditingSession) (nodeID n : NodeId) :
    epochOf (bumpLaneEpoch session nodeID) n = epochOf session n := rfl

@[simp] theorem retireLocalWork_epoch (state : NodeState) :
    (retireLocalWork state).invalidationEpoch = state.invalidationEpoch := rfl

section

variable (session : TextEditingSession)

theorem epochOf_settleRetired (nodeID n : NodeId) (state : NodeState) (draft : Bool) :
    epochOf (settleRetired session nodeID state draft) n =
      if nodeID = n then
        some (if draft then bumped state.invalidationEpoch else state.invalidationEpoch)
      else epochOf session n := by
  rw [settleRetired]
  split
  · rw [epochOf_setNode, epochOf_bumpLaneEpoch]
    rfl
  · rw [epochOf_setNode]

theorem epochOf_applyPublishedValue (nodeID n : NodeId) (published : String) :
    epochOf (applyPublishedValue session nodeID published).1 n =
      if nodeID = n then
        some (if corrects session.preservingLocalTextAcrossRemount (stateOrNew session nodeID)
            published then bumped (stateOrNew session nodeID).invalidationEpoch
          else (stateOrNew session nodeID).invalidationEpoch)
      else epochOf session n := by
  unfold applyPublishedValue corrects
  generalize stateOrNew session nodeID = state
  simp only
  split
  · rename_i hecho
    rw [epochOf_setNode]
    simp [hecho]
  rename_i hother
  split
  · rename_i hkept
    rw [epochOf_setNode]
    simp [hkept]
  · rename_i hreplaced
    have hreplaces : (session.preservingLocalTextAcrossRemount && hasLocalWork state &&
        decide (state.lastKnownAuthoritative = some published)) = false := by
      rw [← Bool.not_eq_true]
      intro hkept
      simp only [Bool.and_eq_true, decide_eq_true_eq] at hkept
      exact hreplaced ⟨hkept.1.1, hkept.1.2, hkept.2⟩
    rw [epochOf_settleRetired, hreplaces]
    simp only [decide_true, ne_eq, hother, not_false_eq_true, Bool.not_false, Bool.true_and,
      epochOf_forgetOrder, apply_ite NodeState.invalidationEpoch, retireLocalWork_epoch, ite_self]

theorem epochOf_flushPending (nodeID n : NodeId) :
    epochOf (flushPending session nodeID) n = epochOf session n := by
  rw [flushPending]
  split
  · rfl
  split
  · rfl
  rename_i state hstate
  have hepoch := epochOf_of_some hstate
  split
  · rfl
  rename_i value _
  simp only
  split
  · exact epochOf_setNode_same hepoch (by rfl) n
  split
  · exact epochOf_setNode_same hepoch (by rfl) n
  split
  · exact epochOf_setNode_same hepoch (by rfl) n
  · refine Eq.trans (b := epochOf (bumpLaneEpoch session nodeID) n) ?_ rfl
    exact epochOf_setNode_same hepoch (by rfl) n

theorem seededState_epoch (nodeID : NodeId) :
    (seededState session nodeID).invalidationEpoch =
      (stateOrNew session nodeID).invalidationEpoch := by
  unfold seededState
  simp only
  split
  · rfl
  · rfl

theorem epochOf_noteRemountedValue (value : String) (nodeID n : NodeId) (composing : Bool) :
    epochOf (noteRemountedValue session value nodeID composing) n =
      if nodeID = n then some (stateOrNew session nodeID).invalidationEpoch
      else epochOf session n := by
  have hseeded := seededState_epoch session nodeID
  unfold noteRemountedValue
  simp only
  split
  · rw [epochOf_setNode]
    simp only [hseeded]
  · rw [epochOf_setNode]
    simp only [apply_ite NodeState.invalidationEpoch, hseeded, ite_self]

theorem appliesDeferred_seeded (nodeID : NodeId) :
    appliesDeferred (seededState session nodeID) = appliesDeferred (stateOrNew session nodeID) := by
  unfold seededState
  simp only
  split
  · unfold appliesDeferred corrects hasLocalWork hadDraft
    rfl
  · rfl

end

theorem epochOf_applyDeferred {state : NodeState} {deferred : String}
    (hpreserving : session.preservingLocalTextAcrossRemount = false)
    (hdeferred : state.deferredAuthoritative = some deferred) (value : String) (composing : Bool)
    (nodeID n : NodeId) :
    epochOf (applyPublishedValue (setNode session nodeID
        { state with
          localValue := value, composing := composing, deferredAuthoritative := none })
        nodeID deferred).1 n =
      if nodeID = n then
        some (if appliesDeferred state then bumped state.invalidationEpoch
          else state.invalidationEpoch)
      else epochOf session n := by
  have hstate : stateOrNew (setNode session nodeID
      { state with
        localValue := value, composing := composing, deferredAuthoritative := none }) nodeID =
      { state with
        localValue := value, composing := composing, deferredAuthoritative := none } := by
    rw [stateOrNew, setNode, getElem?_put, if_pos rfl]
    rfl
  have hcorrects : corrects false
      { state with
        localValue := value, composing := composing, deferredAuthoritative := none } deferred =
      appliesDeferred state := by
    rw [appliesDeferred, hdeferred]
    rfl
  have hkept : (setNode session nodeID
      { state with
        localValue := value, composing := composing, deferredAuthoritative := none
        }).preservingLocalTextAcrossRemount = false := hpreserving
  rw [epochOf_applyPublishedValue, hstate, hkept, hcorrects, epochOf_setNode]
  split
  · rfl
  · rfl

theorem epochOf_noteLocalValue (session : TextEditingSession) (value : String) (nodeID n : NodeId)
    (composing flushImmediately : Bool) :
    epochOf (noteLocalValue session value nodeID composing flushImmediately) n =
      if session.suppressingLocalEditsForResync then epochOf session n
      else if nodeID = n then
        some (if session.preservingLocalTextAcrossRemount || composing ||
            !appliesDeferred (stateOrNew session nodeID) then
          (stateOrNew session nodeID).invalidationEpoch
        else bumped (stateOrNew session nodeID).invalidationEpoch)
      else epochOf session n := by
  have hseeded := seededState_epoch session nodeID
  rw [noteLocalValue]
  split
  · rfl
  split
  · rename_i hpreserving
    rw [epochOf_noteRemountedValue]
    simp [hpreserving]
  rename_i hpreserving
  simp only
  split
  · rename_i hcomposing
    rw [epochOf_setNode]
    simp [hcomposing, hseeded]
  rename_i hcomposing
  have happlies := appliesDeferred_seeded session nodeID
  split
  · rename_i deferred hdeferred
    rw [epochOf_applyDeferred (Bool.not_eq_true _ ▸ hpreserving) hdeferred, happlies, hseeded]
    rcases appliesDeferred (stateOrNew session nodeID) with - | -
    · simp [hpreserving, hcomposing]
    · simp [hpreserving, hcomposing]
  · rename_i hdeferred
    have hnothing : appliesDeferred (stateOrNew session nodeID) = false := by
      rw [← happlies, appliesDeferred, hdeferred]
    have hwritten (pending : Option String) : epochOf (setNode session nodeID
        { seededState session nodeID with
          localValue := value, composing := composing, pendingValue := pending }) n =
        if nodeID = n then some (stateOrNew session nodeID).invalidationEpoch
        else epochOf session n := by
      rw [epochOf_setNode, ← hseeded]
    simp only [hnothing, Bool.not_false, Bool.or_true, if_true]
    split
    · exact hwritten _
    split
    · rw [epochOf_flushPending]
      exact hwritten _
    · exact hwritten _

/-! The calls that leave every epoch as it is. -/

theorem epochOf_abandonComposition (session : TextEditingSession) (nodeID n : NodeId) :
    epochOf (abandonComposition session nodeID) n = epochOf session n := by
  rw [abandonComposition]
  split
  · rfl
  · rename_i state hstate
    exact epochOf_setNode_same (epochOf_of_some hstate) (by rfl) n

theorem epochOf_foldl {ι : Type} {f : TextEditingSession → ι → TextEditingSession} {n : NodeId}
    (hf : ∀ session i, epochOf (f session i) n = epochOf session n) (is : List ι)
    (session : TextEditingSession) : epochOf (is.foldl f session) n = epochOf session n := by
  induction is generalizing session with
  | nil => rfl
  | cons i rest ih => exact (ih (f session i)).trans (hf session i)

section

variable (session : TextEditingSession)

theorem epochOf_recordObservedRevision (nodeID n : NodeId) (text : String) (editSeq : EditSeq)
    (laneEpoch : Nat) (observedRevision : Nat) :
    epochOf (recordObservedRevision session nodeID text editSeq laneEpoch observedRevision).1 n =
      epochOf session n := by
  rw [recordObservedRevision]
  split
  · rfl
  rename_i state hstate
  split
  · exact epochOf_setNode_same (epochOf_of_some hstate) (by rfl) n
  · rfl

theorem epochOf_claimUnassignedEdit (nodeID n : NodeId) (text : String) (editSeq : EditSeq)
    (laneEpoch : Nat) :
    epochOf (claimUnassignedEdit session nodeID text editSeq laneEpoch).1 n =
      epochOf session n := by
  rw [claimUnassignedEdit]
  split
  · rfl
  rename_i state hstate
  split
  · split
    · exact epochOf_setNode_same (epochOf_of_some hstate) (by rfl) n
    · rfl
  · rfl

theorem epochOf_claimNextUnassignedEdit (maxFlushGeneration : Option Nat) (n : NodeId) :
    epochOf (claimNextUnassignedEdit session maxFlushGeneration).1 n = epochOf session n := by
  rw [claimNextUnassignedEdit]
  simp only
  split
  · rfl
  split
  · exact epochOf_claimUnassignedEdit _ _ n _ _ _
  · rfl

theorem epochOf_releaseClaim (edit : LocalTextEdit) (n : NodeId) :
    epochOf (releaseClaim session edit) n = epochOf session n := by
  rw [releaseClaim]
  split
  · rfl
  rename_i state hstate
  split
  · exact epochOf_setNode_same (epochOf_of_some hstate) (by rfl) n
  · rfl

theorem epochOf_releaseNodeClaim (nodeID n : NodeId) :
    epochOf (releaseNodeClaim session nodeID) n = epochOf session n := by
  rw [releaseNodeClaim]
  split
  · rfl
  rename_i state hstate
  split
  · exact epochOf_setNode_same (epochOf_of_some hstate) (by rfl) n
  · rfl

theorem epochOf_noteAssignedMatching (event : Event) (edit : LocalTextEdit) (n : NodeId) :
    epochOf (noteAssignedMatching session event edit).1 n = epochOf session n := by
  rw [noteAssignedMatching]
  split
  swap
  · rfl
  split
  · rfl
  rename_i state hstate
  split
  swap
  · rfl
  simp only
  split
  · refine Eq.trans (b := epochOf (forgetOrder session edit.nodeId) n) ?_ rfl
    exact epochOf_setNode_same (epochOf_of_some hstate) (by rfl) n
  · exact epochOf_setNode_same (epochOf_of_some hstate) (by rfl) n

theorem epochOf_restoreUnassigned (edit : LocalTextEdit) (event : Event) (n : NodeId) :
    epochOf (restoreUnassigned session edit event) n = epochOf session n := by
  rw [restoreUnassigned]
  split
  swap
  · rfl
  split
  · rfl
  rename_i state hstate
  split
  swap
  · rfl
  · refine Eq.trans (b := epochOf (forgetOrder session edit.nodeId) n) ?_ rfl
    exact epochOf_setNode_same (epochOf_of_some hstate) (by rfl) n

theorem epochOf_noteAcknowledged (nodeID n : NodeId) (eventId : EventId) :
    epochOf (noteAcknowledged session nodeID eventId) n = epochOf session n := by
  rw [noteAcknowledged]
  split
  · rfl
  rename_i state hstate
  refine epochOf_setNode_same (epochOf_of_some hstate) ?_ n
  split
  · rfl
  · rfl

/-! The calls that change one. -/

theorem epochOf_setComposing (composing : Bool) (nodeID n : NodeId) :
    epochOf (setComposing session composing nodeID) n =
      if session.suppressingLocalEditsForResync || session.preservingLocalTextAcrossRemount then
        epochOf session n
      else if nodeID = n then
        some (if composing || !(stateOrNew session nodeID).composing ||
            !appliesDeferred (stateOrNew session nodeID) then
          (stateOrNew session nodeID).invalidationEpoch
        else bumped (stateOrNew session nodeID).invalidationEpoch)
      else epochOf session n := by
  rw [setComposing]
  split
  · rename_i hsuppressing
    simp [hsuppressing]
  rename_i hsuppressing
  split
  · rename_i hpreserving
    rw [epochOf_abandonComposition]
    simp [hpreserving]
  rename_i hpreserving
  generalize hstate : stateOrNew session nodeID = state
  simp only [hsuppressing, hpreserving, Bool.or_self, Bool.false_eq_true, if_false]
  split
  · rename_i deferred hdeferred
    split
    · rename_i hending
      simp only [Bool.and_eq_true, Bool.not_eq_true'] at hending
      rw [epochOf_applyDeferred (Bool.not_eq_true _ ▸ hpreserving) hdeferred]
      rcases appliesDeferred state with - | -
      · simp [hending.1, hending.2]
      · simp [hending.1, hending.2]
    · rename_i hending
      have hnot : (composing || !state.composing) = true := by
        rcases composing with - | -
        · rcases hcomposing : state.composing with - | -
          · rfl
          · rw [hcomposing] at hending
            exact absurd rfl hending
        · rfl
      rw [epochOf_setNode]
      simp only [hnot, Bool.true_or, if_true]
  · rename_i hdeferred
    have hnothing : appliesDeferred state = false := by
      rw [appliesDeferred, hdeferred]
    rw [epochOf_setNode]
    simp only [hnothing, Bool.not_false, Bool.or_true, if_true]

theorem epochOf_noteAssigned (event : Event) (n : NodeId) :
    epochOf (noteAssigned session event) n =
      if event.isTextEdit ∧ event.nodeId = n then
        some (stateOrNew session event.nodeId).invalidationEpoch
      else epochOf session n := by
  rw [noteAssigned]
  rcases hedit : event.isTextEdit with - | -
  · rfl
  simp only [if_true, true_and]
  split
  · rw [epochOf_setNode]
    rfl
  · rw [epochOf_setNode]

end

theorem epochOf_bumpNode {session' : TextEditingSession} {state state' : NodeState}
    (hnodes : session'.nodes = session.nodes) (hstate : session.nodes[nodeID]? = some state)
    (hsame : state'.invalidationEpoch = state.invalidationEpoch) (n : NodeId) :
    epochOf (setNode session' nodeID (bumpInvalidationEpoch state')) n =
      if nodeID = n then (epochOf session n).map bumped else epochOf session n := by
  rw [epochOf_setNode]
  split
  · rename_i heq
    rw [← heq, epochOf_of_some hstate, Option.map_some, ← hsame]
    rfl
  · rw [epochOf, hnodes]
    rfl

section

variable (session : TextEditingSession)

theorem epochOf_noteCanceled (nodeID n : NodeId) (eventId : EventId) :
    epochOf (noteCanceled session nodeID eventId) n =
      if nodeID = n ∧ ∃ state, session.nodes[nodeID]? = some state ∧
          state.assignedEventId = some eventId then (epochOf session n).map bumped
      else epochOf session n := by
  rw [noteCanceled]
  split
  · rename_i hnone
    simp [hnone]
  rename_i state hstate
  split
  · rename_i hassigned
    rw [epochOf_bumpNode (by rfl) hstate (by rfl)]
    simp [hstate, hassigned]
  · rename_i hassigned
    simp [hstate, hassigned]

theorem epochOf_invalidateDraft (nodeID n : NodeId) :
    epochOf (invalidateDraft session nodeID) n =
      if nodeID = n then (epochOf session n).map bumped else epochOf session n := by
  rw [invalidateDraft]
  split
  · rename_i hnone
    split
    · rename_i heq
      rw [epochOf, ← heq, hnone]
      rfl
    · rfl
  · rename_i state hstate
    exact epochOf_bumpNode (by rfl) hstate (by rfl) n

theorem epochOf_noteInvalidPublishedValue (nodeID n : NodeId) :
    epochOf (noteInvalidPublishedValue session nodeID) n =
      if nodeID = n ∧ ∃ state, session.nodes[nodeID]? = some state ∧ hadDraft state then
        (epochOf session n).map bumped
      else epochOf session n := by
  rw [noteInvalidPublishedValue]
  split
  · rename_i hnone
    simp [hnone]
  rename_i state hstate
  have hepoch := epochOf_of_some hstate
  rw [epochOf_settleRetired]
  rcases Classical.em (nodeID = n) with rfl | hother
  · rcases hdraft : hadDraft state with - | -
    · simp [hstate, hdraft, hepoch]
    · simp [hstate, hdraft, hepoch]
  · simp [hother]

theorem epochOf_discardUnresolvedEditsForResync (n : NodeId) :
    epochOf (discardUnresolvedEditsForResync session) n = (epochOf session n).map bumped := by
  rw [epochOf, discardUnresolvedEditsForResync, ExtTreeMap.getElem?_map, Option.map_map, epochOf,
    Option.map_map]
  rfl

theorem epochOf_syncPresentNodes (present : List NodeId) (n : NodeId) :
    epochOf (syncPresentNodes session present) n =
      if n ∈ present then epochOf session n else none := by
  rw [epochOf, syncPresentNodes, getElem?_eraseAll]
  simp only [List.mem_filter, decide_eq_true_eq]
  rcases Classical.em (n ∈ present) with hpresent | hgone
  · rw [if_neg (fun h => h.2 hpresent), if_pos hpresent]
    rfl
  rw [if_neg hgone]
  split
  · rfl
  · rename_i hkeys
    have hnone : session.nodes[n]? = none := by
      rw [← not_mem_keySet, keySet, List.mem_toFinset]
      exact fun h => hkeys ⟨h, hgone⟩
    rw [hnone]
    rfl

end

variable {c : Call}

theorem epoch_of_target (h : c.target = some nodeID) (n : NodeId) :
    (effectOn session c n).epoch (epochOf session n) =
      if nodeID = n then
        match session.nodes[nodeID]? with
        | some state => (effectOnState session state c).epoch (some state.invalidationEpoch)
        | none => if givesState session c then some 0 else none
      else epochOf session n := by
  have heffect : effectOn session c n =
      if nodeID = n then
        match session.nodes[n]? with
        | some state => effectOnState session state c
        | none => if givesState session c then .creates else .keeps
      else .keeps := by
    rw [effectOn]
    · rw [h]
      simp only [Option.some.injEq]
    all_goals
      intros
      rename_i hc
      rw [hc] at h
      cases h
  rw [heffect]
  split
  · rename_i heq
    subst heq
    rcases hstate : session.nodes[nodeID]? with - | state
    · simp only
      split
      · rfl
      · rw [epochOf, hstate]
        rfl
    · rw [epochOf_of_some hstate]
  · rfl

theorem epochOf_perform (session : TextEditingSession) (c : Call) (n : NodeId) :
    epochOf (perform session c).1 n = (effectOn session c n).epoch (epochOf session n) := by
  have hstate (nodeID : NodeId) : stateOrNew session nodeID =
      match session.nodes[nodeID]? with
      | some state => state
      | none => {} := by
    rw [stateOrNew]
    split
    · rename_i state hsome
      rw [hsome]
      rfl
    · rename_i hnone
      rw [hnone]
      rfl
  cases c with
  | resetForReplacementSession =>
    show epochOf (resetForReplacementSession session) n = none
    rw [epochOf, resetForReplacementSession, ExtTreeMap.getElem?_empty]
    rfl
  | syncPresentNodes present =>
    rw [perform, epochOf_syncPresentNodes, effectOn]
    split
    · rfl
    · rfl
  | noteAssigned event =>
    rw [perform, epochOf_noteAssigned]
    rcases hedit : event.isTextEdit with - | -
    · have hnone : (Call.noteAssigned event).target = none := by
        rw [Call.target, hedit]
        rfl
      rw [if_neg (fun h => nomatch h.1), effectOn, hnone]
      · rfl
      all_goals
        intros
        rename_i hc
        cases hc
    · have htarget : (Call.noteAssigned event).target = some event.nodeId := by
        rw [Call.target, hedit]
        rfl
      rw [epoch_of_target htarget, hstate]
      simp only [true_and]
      rcases session.nodes[event.nodeId]? with - | state
      · rfl
      · rfl
  | noteAcknowledged nodeID eventId => exact epochOf_noteAcknowledged session nodeID n eventId
  | noteCanceled nodeID eventId =>
    rw [perform, epochOf_noteCanceled, epoch_of_target rfl]
    rcases Classical.em (nodeID = n) with rfl | hother
    swap
    · simp [hother]
    rcases hnode : session.nodes[nodeID]? with - | state
    · simp [epochOf, hnode, givesState]
    · rw [epochOf_of_some hnode]
      simp only [true_and, Option.some.injEq, exists_eq_left', effectOnState, if_true]
      split
      · rfl
      · rfl
  | beginPreservingLocalText =>
    exact epochOf_foldl (fun session i => epochOf_abandonComposition session i n) _ _
  | endPreservingLocalText => rfl
  | invalidateDraft nodeID =>
    rw [perform, epochOf_invalidateDraft, epoch_of_target rfl]
    rcases Classical.em (nodeID = n) with rfl | hother
    swap
    · rw [if_neg hother, if_neg hother]
    rcases hnode : session.nodes[nodeID]? with - | state
    · simp [epochOf, hnode, givesState]
    · rw [epochOf_of_some hnode]
      rfl
  | noteLocalValue value nodeID composing flushImmediately =>
    rw [perform, epochOf_noteLocalValue, epoch_of_target rfl, hstate]
    rcases Classical.em (nodeID = n) with rfl | hother
    swap
    · simp [hother]
    rcases hnode : session.nodes[nodeID]? with - | state
    · have hnothing : appliesDeferred {} = false := rfl
      rcases hsuppressing : session.suppressingLocalEditsForResync with - | -
      · simp [givesState, hnothing, hsuppressing]
      · simp [epochOf, hnode, givesState, hsuppressing]
    · rw [epochOf_of_some hnode]
      simp only [effectOnState, if_true]
      cases session.suppressingLocalEditsForResync <;>
        cases session.preservingLocalTextAcrossRemount <;> cases composing <;>
        cases appliesDeferred state <;> rfl
  | endEditing nodeID =>
    show epochOf (endEditing session nodeID) n = epochOf session n
    rw [endEditing]
    split
    · rfl
    · exact epochOf_flushPending session nodeID n
  | flushPending nodeID => exact epochOf_flushPending session nodeID n
  | flushAllPending =>
    exact epochOf_foldl (fun session i => epochOf_flushPending session i n) _ _
  | recordObservedRevision nodeID text editSeq laneEpoch observedRevision =>
    exact epochOf_recordObservedRevision session nodeID n text editSeq laneEpoch observedRevision
  | nextUnassignedEditNode maxFlushGeneration => rfl
  | claimUnassignedEdit nodeID text editSeq laneEpoch =>
    exact epochOf_claimUnassignedEdit session nodeID n text editSeq laneEpoch
  | claimNextUnassignedEdit maxFlushGeneration =>
    exact epochOf_claimNextUnassignedEdit session maxFlushGeneration n
  | releaseClaim edit => exact epochOf_releaseClaim session edit n
  | releaseUnassignedClaimsForConnectionTransition =>
    exact epochOf_foldl (fun session i => epochOf_releaseNodeClaim session i n) _ _
  | noteAssignedMatching event edit => exact epochOf_noteAssignedMatching session event edit n
  | restoreUnassigned edit event => exact epochOf_restoreUnassigned session edit event n
  | applyPublishedValue nodeID published =>
    rw [perform, epochOf_applyPublishedValue, epoch_of_target rfl, hstate]
    rcases Classical.em (nodeID = n) with rfl | hother
    swap
    · rw [if_neg hother, if_neg hother]
    rcases session.nodes[nodeID]? with - | state
    · have hnothing : corrects session.preservingLocalTextAcrossRemount {} published = false := by
        rw [corrects, Bool.and_eq_false_iff]
        exact Or.inr rfl
      simp [givesState, hnothing]
    · simp only [effectOnState, if_true]
      rcases corrects session.preservingLocalTextAcrossRemount state published with - | -
      · rfl
      · rfl
  | noteInvalidPublishedValue nodeID =>
    rw [perform, epochOf_noteInvalidPublishedValue, epoch_of_target rfl]
    rcases Classical.em (nodeID = n) with rfl | hother
    swap
    · simp [hother]
    rcases hnode : session.nodes[nodeID]? with - | state
    · simp [epochOf, hnode, givesState]
    · rw [epochOf_of_some hnode]
      simp only [true_and, Option.some.injEq, exists_eq_left', effectOnState, if_true]
      split
      · rfl
      · rfl
  | abandonComposition nodeID => exact epochOf_abandonComposition session nodeID n
  | discardUnresolvedEditsForResync => exact epochOf_discardUnresolvedEditsForResync session n
  | finishResyncTextBoundary => rfl
  | setComposing composing nodeID =>
    rw [perform, epochOf_setComposing, epoch_of_target rfl, hstate]
    rcases Classical.em (nodeID = n) with rfl | hother
    swap
    · simp [hother]
    rcases hnode : session.nodes[nodeID]? with - | state
    · have hnothing : appliesDeferred {} = false := rfl
      rcases hfenced : session.suppressingLocalEditsForResync ||
        session.preservingLocalTextAcrossRemount with - | -
      · simp only [Bool.or_eq_false_iff] at hfenced
        simp [givesState, hnothing, hfenced]
      · have hkept : (!session.suppressingLocalEditsForResync &&
            !session.preservingLocalTextAcrossRemount) = false := by
          rw [← Bool.not_or, hfenced]
          rfl
        simp [epochOf, hnode, givesState, hkept]
    · rw [epochOf_of_some hnode]
      simp only [effectOnState, if_true]
      cases session.suppressingLocalEditsForResync <;>
        cases session.preservingLocalTextAcrossRemount <;> cases composing <;>
        cases state.composing <;> cases appliesDeferred state <;> rfl

/-! ### Runs -/

abbrev advance (session : TextEditingSession) (c : Call) : TextEditingSession :=
  (perform session c).1

def Retires (nodeID : NodeId) (session : TextEditingSession) (c : Call) : Prop :=
  effectOn session c nodeID = .bumps ∨ effectOn session c nodeID = .removes

def Creates (nodeID : NodeId) (session : TextEditingSession) (c : Call) : Prop :=
  effectOn session c nodeID = .creates

instance (nodeID : NodeId) (session : TextEditingSession) (c : Call) :
    Decidable (Retires nodeID session c) := inferInstanceAs (Decidable (_ ∨ _))

instance (nodeID : NodeId) (session : TextEditingSession) (c : Call) :
    Decidable (Creates nodeID session c) := inferInstanceAs (Decidable (_ = _))

theorem le_bumped (epoch : Nat) : epoch ≤ bumped epoch := by
  unfold bumped
  split
  · rename_i h
    exact Nat.le_of_eq h
  · exact Nat.le_succ epoch

theorem lt_bumped {claimed : Nat} (hle : claimed ≤ epoch) (hroom : claimed < u64Max) :
    claimed < bumped epoch := by
  unfold bumped
  split
  · exact hroom
  · exact Nat.lt_succ_of_le hle

variable {session : TextEditingSession} {nodeID : NodeId}

theorem epoch_invariant {P : Nat → Prop} (hmono : ∀ e, P e → P (bumped e))
    (h : ∀ e, epochOf session nodeID = some e → P e) (hcreates : ¬Creates nodeID session c) :
    ∀ e, epochOf (advance session c) nodeID = some e → P e := by
  intro e he
  rw [advance, epochOf_perform] at he
  rcases heffect : effectOn session c nodeID with - | - | - | -
  · rw [heffect] at he
    exact h e he
  · rw [heffect] at he
    obtain ⟨e', he', rfl⟩ := Option.map_eq_some_iff.mp he
    exact hmono e' (h e' he')
  · rw [heffect] at he
    cases he
  · exact absurd heffect hcreates

theorem epoch_retired {claimed : Nat} (h : ∀ e, epochOf session nodeID = some e → claimed ≤ e)
    (hroom : claimed < u64Max) (hretires : Retires nodeID session c) :
    ∀ e, epochOf (advance session c) nodeID = some e → claimed < e := by
  intro e he
  rw [advance, epochOf_perform] at he
  rcases hretires with heffect | heffect
  · rw [heffect] at he
    obtain ⟨e', he', rfl⟩ := Option.map_eq_some_iff.mp he
    exact lt_bumped (h e' he') hroom
  · rw [heffect] at he
    cases he

variable {edit : LocalTextEdit}

theorem claim_epoch (h : (perform session c).2 = some edit) :
    epochOf (advance session c) edit.nodeId = some edit.invalidationEpoch := by
  have hclaim : ∀ (session : TextEditingSession) (nodeID : NodeId) (text : String)
      (editSeq : EditSeq) (laneEpoch : Nat),
      (claimUnassignedEdit session nodeID text editSeq laneEpoch).2 = some edit →
      epochOf (claimUnassignedEdit session nodeID text editSeq laneEpoch).1 edit.nodeId =
        some edit.invalidationEpoch := by
    intro session nodeID text editSeq laneEpoch h
    rw [epochOf_claimUnassignedEdit]
    rw [claimUnassignedEdit] at h
    split at h
    · cases h
    rename_i state hstate
    split at h
    swap
    · cases h
    split at h
    · cases h
      exact epochOf_of_some hstate
    · cases h
  cases c with
  | claimUnassignedEdit nodeID text editSeq laneEpoch => exact hclaim _ _ _ _ _ h
  | claimNextUnassignedEdit maxFlushGeneration =>
    simp only [advance, perform, claimNextUnassignedEdit] at h ⊢
    split
    · rename_i hnone
      rw [hnone] at h
      cases h
    rename_i nodeID hsome
    rw [hsome] at h
    simp only at h
    split at h
    · exact hclaim _ _ _ _ _ h
    · cases h
  | _ => cases h

theorem isSnapshotStillValid_iff :
    isSnapshotStillValid session edit = true ↔
      epochOf session edit.nodeId = some edit.invalidationEpoch := by
  rw [isSnapshotStillValid, decide_eq_true_iff, epochOf]

theorem noteAssignedMatching_of_invalid (h : isSnapshotStillValid session edit = false)
    (event : Event) :
    noteAssignedMatching session event edit = (session, false) := by
  have hepoch : ¬epochOf session edit.nodeId = some edit.invalidationEpoch := by
    rw [← isSnapshotStillValid_iff, h]
    exact Bool.false_ne_true
  rw [noteAssignedMatching]
  split
  swap
  · rfl
  split
  · rfl
  rename_i state hstate
  rw [epochOf_of_some hstate] at hepoch
  exact if_neg fun heq => hepoch (congrArg some heq)

theorem effectOnState_ne_creates (session : TextEditingSession) (state : NodeState) (c : Call) :
    effectOnState session state c ≠ .creates := by
  cases c with
  | noteCanceled nodeID eventId | applyPublishedValue nodeID published
  | noteInvalidPublishedValue nodeID =>
    rw [effectOnState]
    split
    · nofun
    · nofun
  | noteLocalValue value nodeID composing flushImmediately | setComposing composing nodeID =>
    rw [effectOnState]
    split
    · nofun
    split
    · nofun
    · nofun
  | _ => nofun

theorem none_of_creates (h : Creates nodeID session c) : epochOf session nodeID = none := by
  rcases hepoch : epochOf session nodeID with - | epoch
  · rfl
  exfalso
  obtain ⟨state, hstate, -⟩ := Option.map_eq_some_iff.mp hepoch
  unfold Creates effectOn at h
  split at h
  · cases h
  · split at h
    · cases h
    · cases h
  · cases h
  split at h
  · rw [hstate] at h
    exact effectOnState_ne_creates session state c h
  · cases h

theorem epoch_kept (h : epochOf session nodeID = some epoch)
    (hretires : ¬Retires nodeID session c) :
    epochOf (advance session c) nodeID = some epoch := by
  rw [advance, epochOf_perform]
  rcases heffect : effectOn session c nodeID with - | - | - | -
  · exact h
  · exact absurd (Or.inl heffect) hretires
  · exact absurd (Or.inr heffect) hretires
  · rw [none_of_creates heffect] at h
    cases h

theorem epoch_reached (h : epochOf session nodeID = some 0) (hroom : epoch ≤ u64Max) :
    epochOf (run advance session (List.replicate epoch (.invalidateDraft nodeID))) nodeID =
      some epoch := by
  induction epoch with
  | zero => exact h
  | succ epoch ih =>
    rw [List.replicate_succ', run_append, run_cons, run_nil]
    rw [advance, perform, epochOf_invalidateDraft, if_pos rfl, ih (Nat.le_of_succ_le hroom)]
    exact congrArg some (if_neg (Nat.ne_of_lt hroom))

/-- A claimed snapshot stays valid until a call retires it. From then on it is invalid, and is
refused, for as long as no call gives its node a state anew; and when one does, some calls
later the snapshot is valid again. -/
theorem retired_until_anew {session : TextEditingSession} {c : Call} {edit : LocalTextEdit}
    (hclaim : (perform session c).2 = some edit) :
    (∀ calls, EveryStep advance (fun s c => ¬Retires edit.nodeId s c) (advance session c) calls →
      isSnapshotStillValid (run advance (advance session c) calls) edit = true) ∧
    (edit.invalidationEpoch < u64Max → ∀ before retiring after,
      EveryStep advance (fun s c => ¬Creates edit.nodeId s c) (advance session c)
        (before ++ retiring :: after) →
      Retires edit.nodeId (run advance (advance session c) before) retiring →
      isSnapshotStillValid
          (run advance (advance session c) (before ++ retiring :: after)) edit = false ∧
        ∀ event, noteAssignedMatching
            (run advance (advance session c) (before ++ retiring :: after)) event edit =
          (run advance (advance session c) (before ++ retiring :: after), false)) ∧
    (edit.invalidationEpoch < u64Max → ∀ before creating,
      Creates edit.nodeId (run advance (advance session c) before) creating →
      ∃ after, isSnapshotStillValid
        (run advance (advance session c) (before ++ creating :: after)) edit = true) := by
  have hepoch := claim_epoch hclaim
  refine ⟨fun calls hcalls => ?_, fun hroom before retiring after hcalls hretires => ?_,
    fun hroom before creating hcreates => ?_⟩
  · rw [isSnapshotStillValid_iff]
    exact hcalls.invariant (P := fun s => epochOf s edit.nodeId = some edit.invalidationEpoch)
      (fun s c h hkeeps => epoch_kept h hkeeps) hepoch
  · obtain ⟨hbefore, -, hafter⟩ := EveryStep.append.mp hcalls
    have hle := hbefore.invariant
      (P := fun s => ∀ e, epochOf s edit.nodeId = some e → edit.invalidationEpoch ≤ e)
      (fun s c h hkeeps => epoch_invariant (fun e he => he.trans (le_bumped e)) h hkeeps)
      (fun e he => by
        rw [hepoch] at he
        exact Nat.le_of_eq (Option.some.inj he))
    have hlt := hafter.invariant
      (P := fun s => ∀ e, epochOf s edit.nodeId = some e → edit.invalidationEpoch < e)
      (fun s c h hkeeps => epoch_invariant (fun e he => he.trans_le (le_bumped e)) h hkeeps)
      (epoch_retired hle hroom hretires)
    have hinvalid : isSnapshotStillValid
        (run advance (advance session c) (before ++ retiring :: after)) edit = false := by
      rw [← Bool.not_eq_true, isSnapshotStillValid_iff, run_append, run_cons]
      intro hvalid
      exact Nat.lt_irrefl _ (hlt _ hvalid)
    exact ⟨hinvalid, fun event => noteAssignedMatching_of_invalid hinvalid event⟩
  · refine ⟨List.replicate edit.invalidationEpoch (.invalidateDraft edit.nodeId), ?_⟩
    rw [isSnapshotStillValid_iff, run_append, run_cons]
    refine epoch_reached ?_ (Nat.le_of_lt hroom)
    rw [advance, epochOf_perform, show effectOn _ creating edit.nodeId = _ from hcreates]
    rfl

def flushedDraft : TextEditingSession :=
  run advance {}
    [.noteLocalValue "draft" 5 false true, .recordObservedRevision 5 "draft" ⟨1, by decide⟩ 1 7]

def claimedDraft : LocalTextEdit where
  nodeId := 5
  text := "draft"
  editSeq := ⟨1, by decide⟩
  observedRevision := 7
  laneEpoch := 1
  flushGeneration := 1
  invalidationEpoch := 0

theorem flushedDraft_claimed :
    (perform flushedDraft (.claimNextUnassignedEdit none)).2 = some claimedDraft := by
  decide +kernel

/-- The claimed draft, superseded by typing, stays valid; corrected, it does not. -/
theorem claimedDraft_retired :
    isSnapshotStillValid (run advance (advance flushedDraft (.claimNextUnassignedEdit none))
      [.noteLocalValue "draft 2" 5 false false, .flushPending 5]) claimedDraft = true ∧
    isSnapshotStillValid (run advance (advance flushedDraft (.claimNextUnassignedEdit none))
      ([] ++ .applyPublishedValue 5 "other" :: [.noteLocalValue "draft" 5 false true]))
      claimedDraft = false ∧
    ∃ after, isSnapshotStillValid (run advance
      (advance flushedDraft (.claimNextUnassignedEdit none))
      ([.resetForReplacementSession] ++ .noteLocalValue "draft" 5 false true :: after))
      claimedDraft = true :=
  have h := retired_until_anew flushedDraft_claimed
  ⟨h.1 _ (by decide +kernel),
    (h.2.1 (by decide) [] (.applyPublishedValue 5 "other") [.noteLocalValue "draft" 5 false true]
      (by decide +kernel) (by decide +kernel)).1,
    h.2.2 (by decide) [.resetForReplacementSession] (.noteLocalValue "draft" 5 false true)
      (by decide +kernel)⟩

/-- The draft is claimed, the session is replaced, and a value is typed: what was claimed of
the session before is valid again, and is assigned. -/
theorem claimedDraft_resurrected :
    (perform flushedDraft (.claimNextUnassignedEdit none)).2 = some claimedDraft ∧
    isSnapshotStillValid (run advance (advance flushedDraft (.claimNextUnassignedEdit none))
      [.resetForReplacementSession]) claimedDraft = false ∧
    isSnapshotStillValid (run advance (advance flushedDraft (.claimNextUnassignedEdit none))
      [.resetForReplacementSession, .noteLocalValue "other" 5 false false]) claimedDraft = true ∧
    (noteAssignedMatching (run advance (advance flushedDraft (.claimNextUnassignedEdit none))
      [.resetForReplacementSession, .noteLocalValue "other" 5 false false])
      ⟨true, 5, some "draft", some ⟨1, by decide⟩, [1]⟩ claimedDraft).2 = true := by
  decide +kernel

end Srui.Client.TextEditingSessions

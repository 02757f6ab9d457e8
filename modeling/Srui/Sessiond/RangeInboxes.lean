import Srui.Sessiond.ModelRanges

/-!
The inbox that keeps the range requests of one connection until the worker fulfils them: windows
of one node and model are merged, models wait in turn.
-/

namespace Srui.Sessiond.RangeInboxes

open Std Basic.Machine Basic.Runs Basic.FiniteMaps SemanticTree.Values
open Sessiond.ModelRanges (ClientModelRangeRequest)

def maxPendingRangesPerModel : Nat := 8

def maxInflightModels : Nat := 32

def coalesceSpan : Nat := 256

def maxMergedCount : Nat := 10000

structure CoalescingState where
  order : List ModelId := []
  pending : ExtTreeMap ModelId (List ClientModelRangeRequest) := ∅
  closed : Bool := false

/-! ### The operations -/

/-- The loop of `evict_oldest_models_over_cap`; a round takes at least one model off the queue. -/
def evictFrom : Nat → CoalescingState → CoalescingState
  | 0, state => state
  | fuel + 1, state =>
    if state.pending.size ≤ maxInflightModels then state
    else
      match state.order with
      | [] => state
      | oldest :: rest =>
        match state.pending[oldest]? with
        | none => evictFrom fuel { state with order := rest }
        | some _ => evictFrom fuel { state with
            order := rest.filter fun id => id ≠ oldest,
            pending := state.pending.erase oldest }

def evictOldestModelsOverCap (state : CoalescingState) : CoalescingState :=
  evictFrom state.order.length state

def requestEnd (request : ClientModelRangeRequest) : Option Nat :=
  checkedAdd request.startIndex request.count

def boundingRange (left right : ClientModelRangeRequest) : Option ClientModelRangeRequest :=
  match requestEnd left, requestEnd right with
  | some leftEnd, some rightEnd =>
    let start := min left.startIndex right.startIndex
    let last := max leftEnd rightEnd
    -- `checked_sub` does not fail: no window ends before it starts.
    let count := last - start
    if count = 0 ∨ maxMergedCount < count then none
    else some ⟨right.nodeId, right.modelId, start, count,
      max left.observedRevision right.observedRevision⟩
  | _, _ => none

def rangesAreClose (left right : ClientModelRangeRequest) : Bool :=
  match requestEnd left, requestEnd right with
  | some leftEnd, some rightEnd =>
    decide (max leftEnd rightEnd - min left.startIndex right.startIndex ≤ coalesceSpan)
  | _, _ => false

/-- The windows kept so far, the merged window, and whether it has absorbed another. -/
abbrev Scan := List ClientModelRangeRequest × ClientModelRangeRequest × Bool

/-- What the first `retain` of `integrate_pending` does with one window. -/
def absorb (scan : Scan) (existing : ClientModelRangeRequest) : Scan :=
  let (kept, merged, absorbed) := scan
  if existing.nodeId ≠ merged.nodeId ∨ existing.modelId ≠ merged.modelId then
    (kept ++ [existing], merged, absorbed)
  else if rangesAreClose existing merged then
    match boundingRange existing merged with
    | some bound => (kept, bound, true)
    | none => (kept ++ [existing], merged, absorbed)
  else (kept ++ [existing], merged, absorbed)

/-- The loop of `trim_pending_to_cap`; a round removes one window. -/
def trimFrom (incomingNode : Nat) : Nat → List ClientModelRangeRequest →
    List ClientModelRangeRequest
  | 0, list => list
  | fuel + 1, list =>
    if list.length ≤ maxPendingRangesPerModel then list
    else
      let last := list.length - 1
      let dropAt := ((list.take last).findIdx? fun existing =>
        decide (existing.nodeId = incomingNode)).getD 0
      trimFrom incomingNode fuel (list.eraseIdx dropAt)

def trimPendingToCap (list : List ClientModelRangeRequest) (incomingNode : Nat) :
    List ClientModelRangeRequest := trimFrom incomingNode list.length list

def integratePending (list : List ClientModelRangeRequest) (incoming : ClientModelRangeRequest) :
    List ClientModelRangeRequest :=
  let (kept, merged, absorbed) := list.foldl absorb ([], incoming, false)
  let kept := if absorbed then kept else kept.filter fun existing => existing.nodeId ≠ merged.nodeId
  trimPendingToCap (kept ++ [merged]) merged.nodeId

def submit (state : CoalescingState) (request : ClientModelRangeRequest) : CoalescingState :=
  if request.nodeId = 0 ∨ request.modelId = 0 ∨ request.count = 0 then state
  else if state.closed then state
  else
    let list := state.pending[request.modelId]?.getD []
    let integrated := integratePending list request
    evictOldestModelsOverCap { state with
      order := if list.isEmpty ∧ ¬integrated.isEmpty then state.order ++ [request.modelId]
        else state.order,
      pending := state.pending.insert request.modelId integrated }

def close (state : CoalescingState) : CoalescingState := { state with closed := true }

/-- The loop of `try_pop`. -/
def popModels (pending : ExtTreeMap ModelId (List ClientModelRangeRequest)) : List ModelId →
    List ModelId × ExtTreeMap ModelId (List ClientModelRangeRequest) ×
      Option ClientModelRangeRequest
  | [] => ([], pending, none)
  | id :: rest =>
    match pending[id]? with
    | none => popModels pending rest
    | some [] => popModels (pending.erase id) rest
    | some [request] => (rest, pending.erase id, some request)
    | some (request :: remaining) => (rest ++ [id], pending.insert id remaining, some request)

def tryPop (state : CoalescingState) : CoalescingState × Option ClientModelRangeRequest :=
  let (order, pending, request) := popModels state.pending state.order
  ({ state with order := order, pending := pending }, request)

/-! ### Merging -/

def Covers (window request : ClientModelRangeRequest) : Prop :=
  window.nodeId = request.nodeId ∧ window.modelId = request.modelId ∧
    window.startIndex ≤ request.startIndex ∧
      request.startIndex + request.count ≤ window.startIndex + window.count

structure Merges (request merged : ClientModelRangeRequest) : Prop where
  covers : Covers merged request
  span : merged = request ∨ merged.count ≤ coalesceSpan

variable {request merged bound left right : ClientModelRangeRequest}
  {list kept : List ClientModelRangeRequest}

theorem boundingRange_covers (h : boundingRange left right = some bound) : Covers bound right := by
  rw [boundingRange] at h
  split at h
  swap
  · cases h
  rename_i leftEnd rightEnd hleft hright
  dsimp only at h
  split at h
  · cases h
  cases h
  obtain ⟨-, rfl⟩ := checkedAdd_eq_some.mp hright
  refine ⟨rfl, rfl, Nat.min_le_right _ _, ?_⟩
  dsimp only
  omega

theorem boundingRange_count_le (hclose : rangesAreClose left right = true)
    (h : boundingRange left right = some bound) : bound.count ≤ coalesceSpan := by
  rw [boundingRange] at h
  split at h
  swap
  · cases h
  rename_i leftEnd rightEnd hleft hright
  rw [rangesAreClose, hleft, hright] at hclose
  dsimp only at h
  split at h
  · cases h
  cases h
  exact of_decide_eq_true hclose

theorem foldl_absorb_others (h : ∀ existing ∈ list, existing.nodeId ≠ merged.nodeId)
    (absorbed : Bool) :
    list.foldl absorb (kept, merged, absorbed) = (kept ++ list, merged, absorbed) := by
  induction list generalizing kept with
  | nil => simp
  | cons existing rest ih =>
    have hkept : absorb (kept, merged, absorbed) existing =
        (kept ++ [existing], merged, absorbed) := by
      rw [absorb, if_pos (Or.inl (h existing List.mem_cons_self))]
    rw [List.foldl_cons, hkept, ih fun other hother => h other (List.mem_cons_of_mem _ hother),
      List.append_assoc, List.singleton_append]

theorem foldl_absorb (kept : List ClientModelRangeRequest) (merged : ClientModelRangeRequest)
    (hnodup : (list.map ClientModelRangeRequest.nodeId).Nodup) :
    list.foldl absorb (kept, merged, false) = (kept ++ list, merged, false) ∨
      ∃ bound, Covers bound merged ∧ bound.count ≤ coalesceSpan ∧
        list.foldl absorb (kept, merged, false) =
          (kept ++ list.filter (fun existing => existing.nodeId ≠ merged.nodeId), bound, true) := by
  induction list generalizing kept with
  | nil => exact Or.inl (by simp)
  | cons existing rest ih =>
    rw [List.map_cons, List.nodup_cons] at hnodup
    obtain ⟨hfresh, hrest⟩ := hnodup
    rw [List.foldl_cons]
    by_cases hnode : existing.nodeId = merged.nodeId
    swap
    · have hkept : absorb (kept, merged, false) existing =
          (kept ++ [existing], merged, false) := by
        rw [absorb, if_pos (Or.inl hnode)]
      rw [hkept, List.filter_cons_of_pos (by simpa using hnode)]
      rcases ih (kept ++ [existing]) hrest with heq | ⟨bound, hcovers, hspan, heq⟩
      · exact Or.inl (by rw [heq, List.append_assoc, List.singleton_append])
      · exact Or.inr ⟨bound, hcovers, hspan, by
          rw [heq, List.append_assoc, List.singleton_append]⟩
    have hothers : ∀ other ∈ rest, other.nodeId ≠ merged.nodeId := by
      intro other hother heq
      exact hfresh (List.mem_map.mpr ⟨other, hother, heq.trans hnode.symm⟩)
    have hkept : rest.foldl absorb (kept ++ [existing], merged, false) =
        (kept ++ existing :: rest, merged, false) := by
      rw [foldl_absorb_others hothers, List.append_assoc, List.singleton_append]
    rw [absorb]
    split
    · exact Or.inl hkept
    split
    swap
    · exact Or.inl hkept
    rename_i hclose
    split
    swap
    · exact Or.inl hkept
    rename_i bound hbound
    have hcovers := boundingRange_covers hbound
    refine Or.inr ⟨bound, hcovers, boundingRange_count_le hclose hbound, ?_⟩
    rw [foldl_absorb_others fun other hother => hcovers.1 ▸ hothers other hother,
      List.filter_cons_of_neg (by simpa using hnode), List.filter_eq_self.mpr]
    simpa using hothers

theorem trimFrom_eq (merged : ClientModelRangeRequest) {node : Nat} (fuel : Nat)
    (hothers : ∀ existing ∈ kept, existing.nodeId ≠ node) (hfuel : kept.length < fuel) :
    ∃ newest, newest <:+ kept ∧ newest.length < maxPendingRangesPerModel ∧
      trimFrom node fuel (kept ++ [merged]) = newest ++ [merged] := by
  induction fuel generalizing kept with
  | zero => exact absurd hfuel (Nat.not_lt_zero _)
  | succ fuel ih =>
    rw [trimFrom]
    split
    · rename_i hfew
      rw [List.length_append, List.length_singleton] at hfew
      exact ⟨kept, List.suffix_rfl, hfew, rfl⟩
    rename_i hmany
    rcases kept with - | ⟨oldest, rest⟩
    · simp [maxPendingRangesPerModel] at hmany
    have hnone : ((oldest :: rest ++ [merged]).take ((oldest :: rest ++ [merged]).length - 1)
        ).findIdx? (fun existing => decide (existing.nodeId = node)) = none := by
      rw [List.length_append, List.length_singleton, Nat.add_sub_cancel, List.take_left]
      rw [List.findIdx?_eq_none_iff]
      intro existing hmem
      exact decide_eq_false (hothers existing hmem)
    simp only [hnone, Option.getD_none]
    obtain ⟨newest, hsuffix, hfew, heq⟩ := ih
      (fun existing hmem => hothers existing (List.mem_cons_of_mem _ hmem))
      (Nat.lt_of_succ_lt_succ hfuel)
    exact ⟨newest, hsuffix.trans (List.suffix_cons _ _), hfew, heq⟩

theorem integratePending_eq (hnodup : (list.map ClientModelRangeRequest.nodeId).Nodup)
    (request : ClientModelRangeRequest) :
    ∃ kept merged, Merges request merged ∧ kept.Sublist list ∧
      (∀ existing ∈ kept, existing.nodeId ≠ merged.nodeId) ∧
      kept.length < maxPendingRangesPerModel ∧
      integratePending list request = kept ++ [merged] := by
  have htrimmed : ∀ merged, merged.nodeId = request.nodeId → ∃ newest,
      newest.Sublist list ∧ (∀ existing ∈ newest, existing.nodeId ≠ merged.nodeId) ∧
        newest.length < maxPendingRangesPerModel ∧
        trimPendingToCap (list.filter (fun existing => existing.nodeId ≠ request.nodeId) ++
          [merged]) merged.nodeId = newest ++ [merged] := by
    intro merged hnode
    have hothers : ∀ existing ∈
        list.filter (fun existing => existing.nodeId ≠ request.nodeId),
        existing.nodeId ≠ merged.nodeId := by
      intro existing hmem
      rw [hnode]
      exact of_decide_eq_true (List.mem_filter.mp hmem).2
    obtain ⟨newest, hsuffix, hfew, heq⟩ := trimFrom_eq merged _ hothers (Nat.lt_succ_self _)
    refine ⟨newest, hsuffix.sublist.trans List.filter_sublist, ?_, hfew, ?_⟩
    · exact fun existing hmem => hothers existing (hsuffix.subset hmem)
    · rw [trimPendingToCap, List.length_append, List.length_singleton]
      exact heq
  rcases foldl_absorb [] request hnodup with
    heq | ⟨bound, hcovers, hspan, heq⟩
  · obtain ⟨newest, hsub, hothers, hfew, htrim⟩ := htrimmed request rfl
    refine ⟨newest, request, ⟨⟨rfl, rfl, Nat.le_refl _, Nat.le_refl _⟩, Or.inl rfl⟩, hsub,
      hothers, hfew, ?_⟩
    rw [integratePending, heq]
    exact htrim
  · obtain ⟨newest, hsub, hothers, hfew, htrim⟩ := htrimmed bound hcovers.1
    refine ⟨newest, bound, ⟨hcovers, Or.inr hspan⟩, hsub, hothers, hfew, ?_⟩
    rw [integratePending, heq]
    exact htrim

/-! ### The queue -/

structure Windows (submitted : List ClientModelRangeRequest) (id : ModelId)
    (list : List ClientModelRangeRequest) : Prop where
  nonempty : list ≠ []
  keyed : ∀ window ∈ list, window.modelId = id
  onePerNode : (list.map ClientModelRangeRequest.nodeId).Nodup
  few : list.length ≤ maxPendingRangesPerModel
  span : ∀ window ∈ list, window ∈ submitted ∨ window.count ≤ coalesceSpan

structure Queued (submitted : List ClientModelRangeRequest) (state : CoalescingState) : Prop where
  nodup : state.order.Nodup
  order : ∀ id, id ∈ state.order ↔ ∃ list, state.pending[id]? = some list
  windows : ∀ (id : ModelId) list, state.pending[id]? = some list → Windows submitted id list

structure Sound (submitted : List ClientModelRangeRequest) (state : CoalescingState) : Prop
    extends Queued submitted state where
  models : state.pending.size ≤ maxInflightModels

def Pending (state : CoalescingState) (window : ClientModelRangeRequest) : Prop :=
  ∃ (id : ModelId) (list : List ClientModelRangeRequest),
    state.pending[id]? = some list ∧ window ∈ list

variable {submitted submitted' : List ClientModelRangeRequest} {state : CoalescingState}

variable {id : ModelId}

theorem Windows.mono (hsub : submitted ⊆ submitted')
    (h : Windows submitted id list) : Windows submitted' id list :=
  { h with span := fun window hwindow => (h.span window hwindow).imp_left fun hmem => hsub hmem }

theorem Queued.mono (hsub : submitted ⊆ submitted') (h : Queued submitted state) :
    Queued submitted' state :=
  { h with windows := fun id list hlist => (h.windows id list hlist).mono hsub }

theorem Queued.length_order (h : Queued submitted state) :
    state.order.length = state.pending.size := by
  have hkeys : state.order.toFinset = keySet state.pending := by
    ext id
    rw [List.mem_toFinset, h.order, mem_keySet]
  rw [← card_keySet, ← hkeys, List.toFinset_card_of_nodup h.nodup]

theorem windows_integratePending (h : list = [] ∨ Windows submitted id list)
    (hkey : request.modelId = id) (hsubmitted : request ∈ submitted) :
    Windows submitted id (integratePending list request) ∧
      ∃ window ∈ integratePending list request, Covers window request := by
  have hnodup : (list.map ClientModelRangeRequest.nodeId).Nodup := by
    rcases h with rfl | hwindows
    · exact List.nodup_nil
    · exact hwindows.onePerNode
  obtain ⟨kept, merged, hmerges, hsub, hothers, hfew, heq⟩ := integratePending_eq hnodup request
  have hold : ∀ window ∈ kept, Windows submitted id list ∧ window ∈ list := by
    intro window hwindow
    have hmem := hsub.subset hwindow
    rcases h with rfl | hwindows
    · cases hmem
    · exact ⟨hwindows, hmem⟩
  rw [heq]
  refine ⟨⟨?_, ?_, ?_, ?_, ?_⟩, merged, ?_, hmerges.covers⟩
  · exact List.append_ne_nil_of_right_ne_nil _ (List.cons_ne_nil _ _)
  · intro window hwindow
    rcases List.mem_append.mp hwindow with hkept | hnew
    · obtain ⟨hwindows, hmem⟩ := hold window hkept
      exact hwindows.keyed window hmem
    · rw [List.mem_singleton.mp hnew]
      exact hmerges.covers.2.1.trans hkey
  · rw [List.map_append, List.map_singleton]
    refine List.nodup_append.mpr
      ⟨hnodup.sublist (hsub.map _), List.nodup_singleton _, ?_⟩
    intro node hnode other hother
    obtain ⟨existing, hexisting, rfl⟩ := List.mem_map.mp hnode
    rw [List.mem_singleton.mp hother]
    exact hothers existing hexisting
  · rw [List.length_append, List.length_singleton]
    exact hfew
  · intro window hwindow
    rcases List.mem_append.mp hwindow with hkept | hnew
    · obtain ⟨hwindows, hmem⟩ := hold window hkept
      exact hwindows.span window hmem
    · rw [List.mem_singleton.mp hnew]
      rcases hmerges.span with rfl | hspan
      · exact Or.inl hsubmitted
      · exact Or.inr hspan
  · exact List.mem_append_right _ List.mem_cons_self

theorem Queued.put (h : Queued submitted state)
    (hlist : Windows submitted id list) :
    Queued submitted { state with
      order := if state.pending[id]? = none then state.order ++ [id] else state.order,
      pending := state.pending.insert id list } := by
  constructor
  · dsimp only
    split
    · rename_i hnone
      refine List.nodup_append.mpr ⟨h.nodup, List.nodup_singleton _, ?_⟩
      intro other hother new hnew
      rw [List.mem_singleton.mp hnew]
      rintro rfl
      obtain ⟨old, hold⟩ := (h.order other).mp hother
      rw [hnone] at hold
      cases hold
    · exact h.nodup
  · intro other
    dsimp only
    rw [getElem?_put]
    by_cases heq : id = other
    · rw [if_pos heq, ← heq]
      refine ⟨fun _ => ⟨list, rfl⟩, fun _ => ?_⟩
      split
      · exact List.mem_append_right _ List.mem_cons_self
      · rename_i hsome
        exact (h.order id).mpr (Option.ne_none_iff_exists'.mp hsome)
    · rw [if_neg heq, ← h.order]
      split
      · rw [List.mem_append, List.mem_singleton]
        exact ⟨fun hmem => hmem.resolve_right fun hsame => heq hsame.symm, Or.inl⟩
      · exact Iff.rfl
  · intro other list' hother
    rw [getElem?_put] at hother
    split at hother
    · rename_i heq
      cases hother
      exact heq ▸ hlist
    · exact h.windows other list' hother

theorem Queued.erase {rest : List ModelId} (h : Queued submitted state)
    (horder : state.order = id :: rest) :
    Queued submitted { state with order := rest, pending := state.pending.erase id } := by
  have hnodup := h.nodup
  rw [horder, List.nodup_cons] at hnodup
  constructor
  · exact hnodup.2
  · intro other
    rw [getElem?_drop]
    split
    · rename_i heq
      refine ⟨fun hmem => (hnodup.1 (heq ▸ hmem)).elim, ?_⟩
      rintro ⟨list, hlist⟩
      cases hlist
    · rename_i hne
      rw [← h.order, horder, List.mem_cons]
      exact ⟨Or.inr, fun hmem => hmem.resolve_left fun hsame => hne hsame.symm⟩
  · intro other list hother
    rw [getElem?_drop] at hother
    split at hother
    · cases hother
    · exact h.windows other list hother

theorem evictFrom_of_few (fuel : Nat) (h : state.pending.size ≤ maxInflightModels) :
    evictFrom fuel state = state := by
  cases fuel with
  | zero => rfl
  | succ fuel => rw [evictFrom, if_pos h]

theorem Queued.evict (h : Queued submitted state)
    (hsize : state.pending.size ≤ maxInflightModels + 1) :
    Sound submitted (evictOldestModelsOverCap state) ∧
      ∀ (earlier : List ModelId) (id : ModelId), state.order = earlier ++ [id] →
        (evictOldestModelsOverCap state).pending[id]? = state.pending[id]? := by
  rw [evictOldestModelsOverCap]
  by_cases hfew : state.pending.size ≤ maxInflightModels
  · rw [evictFrom_of_few _ hfew]
    exact ⟨{ h with models := hfew }, fun _ _ _ => rfl⟩
  have hlength := h.length_order
  rcases horder : state.order with - | ⟨oldest, rest⟩
  · rw [horder, List.length_nil] at hlength
    rw [← hlength] at hfew
    exact absurd (Nat.zero_le _) hfew
  obtain ⟨list, hlist⟩ := (h.order oldest).mp (horder ▸ List.mem_cons_self)
  have hnodup := h.nodup
  rw [horder, List.nodup_cons] at hnodup
  have herased := h.erase horder
  have hgone := size_erase_of_present hlist
  have hrest : rest.filter (fun id => id ≠ oldest) = rest := by
    rw [List.filter_eq_self]
    intro id hid
    exact decide_eq_true fun heq => hnodup.1 (heq ▸ hid)
  have hafter : (state.pending.erase oldest).size ≤ maxInflightModels := by omega
  rw [List.length_cons, evictFrom, if_neg hfew, horder]
  simp only [hlist, hrest]
  rw [evictFrom_of_few _ hafter]
  refine ⟨{ herased with models := hafter }, ?_⟩
  intro earlier id hlast
  have hne : oldest ≠ id := by
    rintro rfl
    rcases earlier with - | ⟨first, others⟩
    · cases hlast
      rw [horder, List.length_singleton] at hlength
      rw [← hlength] at hfew
      exact hfew (by decide)
    · cases hlast
      exact hnodup.1 (List.mem_append_right _ List.mem_cons_self)
  rw [getElem?_drop, if_neg hne]

/-! ### Submitting -/

/-- The request is well formed and the inbox is open. -/
def Accepted (state : CoalescingState) (request : ClientModelRangeRequest) : Prop :=
  request.nodeId ≠ 0 ∧ request.modelId ≠ 0 ∧ request.count ≠ 0 ∧ state.closed = false

theorem submit_refused (h : ¬Accepted state request) : submit state request = state := by
  rw [submit]
  split
  · rfl
  split
  · rfl
  · rename_i hformed hopen
    rw [not_or, not_or] at hformed
    exact (h ⟨hformed.1, hformed.2.1, hformed.2.2, by simpa using hopen⟩).elim

theorem submit_accepted (h : Accepted state request) (hqueued : Queued submitted state) :
    submit state request = evictOldestModelsOverCap { state with
      order := if state.pending[request.modelId]? = none then state.order ++ [request.modelId]
        else state.order,
      pending := state.pending.insert request.modelId
        (integratePending (state.pending[request.modelId]?.getD []) request) } := by
  obtain ⟨hnode, hmodel, hcount, hopen⟩ := h
  have hformed : ¬(request.nodeId = 0 ∨ request.modelId = 0 ∨ request.count = 0) := by
    rintro (hzero | hzero | hzero)
    · exact hnode hzero
    · exact hmodel hzero
    · exact hcount hzero
  rw [submit, if_neg hformed, if_neg (by simp [hopen])]
  rcases hpending : state.pending[request.modelId]? with - | list
  · have hnil : (([] : List ClientModelRangeRequest).map ClientModelRangeRequest.nodeId).Nodup :=
      List.nodup_nil
    obtain ⟨kept, merged, -, -, -, -, heq⟩ := integratePending_eq hnil request
    simp [heq]
  · have hnonempty := (hqueued.windows _ _ hpending).nonempty
    simp [hnonempty]

theorem Sound.submit (h : Sound submitted state) (request : ClientModelRangeRequest) :
    Sound (submitted ++ [request]) (submit state request) ∧
      (Accepted state request → ∃ window, Pending (submit state request) window ∧
        Covers window request) := by
  have hqueued := h.toQueued.mono (List.subset_append_left submitted [request])
  rcases Classical.em (Accepted state request) with haccepted | hrefused
  swap
  · rw [submit_refused hrefused]
    exact ⟨{ hqueued with models := h.models }, fun haccepted => (hrefused haccepted).elim⟩
  rw [submit_accepted haccepted h.toQueued]
  have hlist : state.pending[request.modelId]?.getD [] = [] ∨ Windows (submitted ++ [request])
      request.modelId (state.pending[request.modelId]?.getD []) := by
    rcases hpending : state.pending[request.modelId]? with - | list
    · exact Or.inl rfl
    · exact Or.inr (hqueued.windows _ _ hpending)
  obtain ⟨hwindows, window, hwindow, hcovers⟩ :=
    windows_integratePending hlist rfl (List.mem_append_right _ List.mem_cons_self)
  have hput := hqueued.put hwindows
  have hsize := h.models
  rcases hpending : state.pending[request.modelId]? with - | list
  · rw [hpending] at hput hwindow
    have hgrown := size_insert_of_fresh (integratePending (Option.getD none []) request) hpending
    obtain ⟨hsound, hkept⟩ := hput.evict (by dsimp only; omega)
    refine ⟨hsound, fun _ => ⟨window, ⟨request.modelId, _, ?_, hwindow⟩, hcovers⟩⟩
    rw [hkept state.order request.modelId (by dsimp only; rw [if_pos rfl])]
    exact (getElem?_put ..).trans (if_pos rfl)
  · rw [hpending] at hput hwindow
    have hsame := size_insert_of_present (integratePending (Option.getD (some list) []) request)
      hpending
    have hfew : (state.pending.insert request.modelId
        (integratePending (Option.getD (some list) []) request)).size ≤ maxInflightModels := by
      omega
    rw [evictOldestModelsOverCap, evictFrom_of_few _ hfew]
    refine ⟨{ hput with models := hfew }, fun _ =>
      ⟨window, ⟨request.modelId, _, ?_, hwindow⟩, hcovers⟩⟩
    exact (getElem?_put ..).trans (if_pos rfl)

/-! ### Popping -/

theorem insert_erase (t : ExtTreeMap ModelId (List ClientModelRangeRequest)) (id : ModelId)
    (list : List ClientModelRangeRequest) : (t.erase id).insert id list = t.insert id list := by
  apply ExtTreeMap.ext_getElem?
  intro other
  rw [getElem?_put, getElem?_put, getElem?_drop]
  split <;> rfl

def waiting (state : CoalescingState) : List ClientModelRangeRequest :=
  state.order.flatMap fun id => state.pending[id]?.getD []

theorem mem_waiting (h : Queued submitted state) {window : ClientModelRangeRequest} :
    window ∈ waiting state ↔ Pending state window := by
  rw [waiting, List.mem_flatMap]
  constructor
  · rintro ⟨id, hid, hmem⟩
    obtain ⟨list, hlist⟩ := (h.order id).mp hid
    rw [hlist] at hmem
    exact ⟨id, list, hlist, hmem⟩
  · rintro ⟨id, list, hlist, hmem⟩
    refine ⟨id, (h.order id).mpr ⟨list, hlist⟩, ?_⟩
    rw [hlist]
    exact hmem

theorem nodup_waiting (h : Queued submitted state) : (waiting state).Nodup := by
  rw [waiting, List.nodup_flatMap]
  constructor
  · intro id hid
    obtain ⟨list, hlist⟩ := (h.order id).mp hid
    rw [hlist]
    exact (h.windows id list hlist).onePerNode.of_map
  · refine h.nodup.imp ?_
    intro id other hne window hwindow hother
    have hkey : ∀ key : ModelId, window ∈ state.pending[key]?.getD [] → window.modelId = key := by
      intro key hmem
      rcases hlist : state.pending[key]? with - | list
      · rw [hlist] at hmem
        cases hmem
      · rw [hlist] at hmem
        exact (h.windows key list hlist).keyed window hmem
    exact hne ((hkey id hwindow).symm.trans (hkey other hother))

theorem Queued.tryPop (h : Queued submitted state) :
    state.order = [] ∧ tryPop state = (state, none) ∨
      ∃ window state', tryPop state = (state', some window) ∧ Queued submitted state' ∧
        state'.pending.size ≤ state.pending.size ∧
        (waiting state).Perm (window :: waiting state') := by
  rcases horder : state.order with - | ⟨id, rest⟩
  · refine Or.inl ⟨rfl, ?_⟩
    rw [RangeInboxes.tryPop, horder, popModels, ← horder]
  obtain ⟨list, hlist⟩ := (h.order id).mp (horder ▸ List.mem_cons_self)
  have hwindows := h.windows id list hlist
  have hnodup := h.nodup
  rw [horder, List.nodup_cons] at hnodup
  have herased := h.erase horder
  have hgone := size_erase_of_present hlist
  -- The other models keep their windows.
  have hothers : ∀ pending : ExtTreeMap ModelId (List ClientModelRangeRequest),
      (∀ other, id ≠ other → pending[other]? = state.pending[other]?) →
        rest.flatMap (fun other => pending[other]?.getD []) =
          rest.flatMap fun other => state.pending[other]?.getD [] := by
    intro pending hsame
    refine List.flatMap_congr fun other hother => ?_
    rw [hsame other]
    rintro rfl
    exact hnodup.1 hother
  right
  rw [RangeInboxes.tryPop, horder, waiting, horder, List.flatMap_cons, hlist, Option.getD_some]
  rcases list with - | ⟨window, - | ⟨second, others⟩⟩
  · exact (hwindows.nonempty rfl).elim
  · refine ⟨window, { state with order := rest, pending := state.pending.erase id }, ?_, herased,
      ?_, ?_⟩
    · rw [popModels, hlist]
    · dsimp only
      omega
    · have hrest := hothers (state.pending.erase id) fun other hne => by
        rw [getElem?_drop, if_neg hne]
      rw [waiting, List.singleton_append]
      dsimp only
      rw [hrest]
  · have hremaining : Windows submitted id (second :: others) := by
      obtain ⟨-, hkeyed, hone, hfew, hspan⟩ := hwindows
      rw [List.map_cons, List.nodup_cons] at hone
      refine ⟨List.cons_ne_nil _ _, ?_, hone.2, ?_, ?_⟩
      · exact fun other hother => hkeyed other (List.mem_cons_of_mem _ hother)
      · exact Nat.le_trans (Nat.le_succ _) hfew
      · exact fun other hother => hspan other (List.mem_cons_of_mem _ hother)
    have hput := herased.put hremaining
    dsimp only at hput
    rw [insert_erase, getElem?_drop, if_pos rfl, if_pos rfl] at hput
    refine ⟨window, { state with
      order := rest ++ [id],
      pending := state.pending.insert id (second :: others) }, ?_, hput, ?_, ?_⟩
    · rw [popModels, hlist]
    · exact (size_insert_of_present _ hlist).le
    · have hrest := hothers (state.pending.insert id (second :: others)) fun other hne => by
        rw [getElem?_put, if_neg hne]
      rw [waiting, List.cons_append]
      dsimp only
      rw [List.flatMap_append, hrest, List.flatMap_singleton, getElem?_put, if_pos rfl]
      exact List.Perm.cons _ List.perm_append_comm

/-- The answers of the next calls of `try_pop`. -/
def pops : Nat → CoalescingState → List (Option ClientModelRangeRequest)
  | 0, _ => []
  | n + 1, state => (tryPop state).2 :: pops n (tryPop state).1

theorem pops_of_empty (h : tryPop state = (state, none)) (n : Nat) :
    pops n state = List.replicate n none := by
  induction n with
  | zero => rfl
  | succ n ih => rw [pops, h, ih, List.replicate_succ]

theorem Queued.drains (h : Queued submitted state) :
    ∃ windows : List ClientModelRangeRequest, windows.Perm (waiting state) ∧ ∀ n,
      pops (windows.length + n) state = windows.map some ++ List.replicate n none := by
  induction hload : (waiting state).length generalizing state with
  | zero =>
    rcases h.tryPop with ⟨-, hnone⟩ | ⟨window, state', -, -, -, hperm⟩
    · refine ⟨[], ?_, fun n => ?_⟩
      · rw [List.eq_nil_of_length_eq_zero hload]
      · rw [List.length_nil, Nat.zero_add]
        exact pops_of_empty hnone n
    · rw [hperm.length_eq] at hload
      cases hload
  | succ load ih =>
    rcases h.tryPop with ⟨hempty, -⟩ | ⟨window, state', hpop, hqueued, -, hperm⟩
    · rw [waiting, hempty] at hload
      cases hload
    · rw [hperm.length_eq, List.length_cons, Nat.add_right_cancel_iff] at hload
      obtain ⟨windows, hwindows, hpops⟩ := ih hqueued hload
      refine ⟨window :: windows, (hwindows.cons window).trans hperm.symm, fun n => ?_⟩
      rw [List.length_cons, Nat.add_right_comm, pops, hpop, hpops n, List.map_cons,
        List.cons_append]

/-! ### Runs -/

inductive Input where
  | submit (request : ClientModelRangeRequest)
  | tryPop
  | close

structure Inbox where
  state : CoalescingState := {}
  submitted : List ClientModelRangeRequest := []

def step (inbox : Inbox) : Input → Inbox
  | .submit request => ⟨submit inbox.state request, inbox.submitted ++ [request]⟩
  | .tryPop => { inbox with state := (tryPop inbox.state).1 }
  | .close => { inbox with state := close inbox.state }

theorem sound_new : Sound [] {} where
  nodup := List.nodup_nil
  order := by simp
  windows := by simp
  models := by simp

theorem sound_step {inbox : Inbox} (h : Sound inbox.submitted inbox.state) (input : Input) :
    Sound (step inbox input).submitted (step inbox input).state := by
  cases input with
  | submit request => exact (h.submit request).1
  | tryPop =>
    rw [step]
    rcases h.toQueued.tryPop with ⟨-, hnone⟩ | ⟨window, state', hpop, hqueued, hsize, -⟩
    · rw [hnone]
      exact h
    · rw [hpop]
      exact { hqueued with models := Nat.le_trans hsize h.models }
  | close => exact { nodup := h.nodup, order := h.order, windows := h.windows, models := h.models }

/-- The inbox is in order, a request it accepts is covered by a pending window, and repeated pops
return every pending window once before they find none. -/
structure Serves (inbox : Inbox) : Prop where
  sound : Sound inbox.submitted inbox.state
  covered : ∀ request, Accepted inbox.state request →
    ∃ window, Pending (submit inbox.state request) window ∧ Covers window request
  drained : ∃ windows : List ClientModelRangeRequest, windows.Nodup ∧
    (∀ window, window ∈ windows ↔ Pending inbox.state window) ∧
    ∀ n, pops (windows.length + n) inbox.state = windows.map some ++ List.replicate n none

theorem inbox_serves (inputs : List Input) : EveryState step Serves {} inputs := by
  have hany : EveryStep step (fun _ _ => True) {} inputs :=
    everyStep_of_forall (fun _ _ => trivial) _ inputs
  have hsound : EveryState step (fun inbox => Sound inbox.submitted inbox.state) {} inputs :=
    hany.everyState (fun inbox input h _ => sound_step h input) sound_new
  refine EveryState.mono ?_ hsound
  intro inbox h
  refine ⟨h, fun request => (h.submit request).2, ?_⟩
  obtain ⟨windows, hperm, hpops⟩ := h.toQueued.drains
  refine ⟨windows, hperm.nodup_iff.mpr (nodup_waiting h.toQueued), fun window => ?_, hpops⟩
  rw [hperm.mem_iff, mem_waiting h.toQueued]

end Srui.Sessiond.RangeInboxes

import Srui.SemanticTree.ModelBounds
import Srui.SemanticTree.Replay
import Srui.Sessiond.Snapshots

/-!
The models of an exported snapshot: the exported ranges carry every cached item
exactly once, in chunks the store accepts, and applying them rebuilds the model.
-/

namespace Srui.Sessiond.SnapshotModels

open Std Basic.Machine Basic.FiniteMaps SemanticTree.Values SemanticTree.Limits SemanticTree.Models
open SemanticTree.Stores SemanticTree.Operations SemanticTree.ModelIndex SemanticTree.ModelMutations
open SemanticTree.ModelBounds SemanticTree.Wire SemanticTree.WireRoundTrip SemanticTree.Replay
open Sessiond.Snapshots

/-!
Wire operations that decode and then apply without a failure.
-/

/-- The wire operations turn one store into another when they are decoded and
applied in order. -/
def Rebuilds (wire : List WireOperation) (s s' : SemanticStore) : Prop :=
  ∃ ops, decodeOperations wire = .ok ops ∧ Applies s ops s'

theorem Rebuilds.refl (s : SemanticStore) : Rebuilds [] s s := ⟨[], rfl, rfl⟩

theorem decodeOperations_append {wire wire' : List WireOperation} {ops ops' : List Operation}
    (h : decodeOperations wire = .ok ops) (h' : decodeOperations wire' = .ok ops') :
    decodeOperations (wire ++ wire') = .ok (ops ++ ops') := by
  induction wire generalizing ops with
  | nil =>
    rw [decodeOperations, Except.ok.injEq] at h
    rw [← h]
    exact h'
  | cons op rest ih =>
    rw [decodeOperations] at h
    rw [List.cons_append, decodeOperations]
    cases hop : decodeOperation op with
    | error e => simp [hop] at h
    | ok decoded =>
      cases hrest : decodeOperations rest with
      | error e => simp [hop, hrest] at h
      | ok tail =>
        simp only [hop, hrest, Except.ok.injEq] at h
        rw [ih hrest, ← h]
        rfl

theorem Rebuilds.append {wire wire' : List WireOperation} {s s' s'' : SemanticStore}
    (h : Rebuilds wire s s') (h' : Rebuilds wire' s' s'') : Rebuilds (wire ++ wire') s s'' := by
  obtain ⟨ops, hdecode, happlies⟩ := h
  obtain ⟨ops', hdecode', happlies'⟩ := h'
  exact ⟨ops ++ ops', decodeOperations_append hdecode hdecode', happlies.append happlies'⟩

theorem Rebuilds.single {wire : WireOperation} {op : Operation} {s : SemanticStore}
    (hdecode : decodeOperation wire = .ok op) (hok : (apply op s).2 = .ok ()) :
    Rebuilds [wire] s (apply op s).1 := by
  refine ⟨[op], ?_, hok, rfl⟩
  rw [decodeOperations, hdecode]
  rfl

/-!
Chunking. The items of the exported operations, read in order, are the items of
the model.
-/

def segmentOp (modelId : ModelId) (segment : Nat × List ModelItem) : WireOperation :=
  .modelResetRange modelId segment.1 (segment.2.map encodeItem) 0

/-- The operations after `base` are runs that carry exactly the entries. -/
def Exported (modelId : ModelId) (base ops : List WireOperation)
    (entries : List (Nat × ModelItem)) : Prop :=
  ∃ segments : List (Nat × List ModelItem), ops = base ++ segments.map (segmentOp modelId) ∧
    (∀ segment ∈ segments, segment.2 ≠ [] ∧
      segment.2.length ≤ defaultMaxItemsPerModelOperation) ∧
    segments.flatMap (fun segment => batchEntries segment.1 0 segment.2) = entries

theorem Exported.nothing (modelId : ModelId) (base : List WireOperation) :
    Exported modelId base base [] := ⟨[], by simp, by simp, rfl⟩

variable {base ops : List WireOperation} {modelId : ModelId}

variable {entries : List (Nat × ModelItem)} {items : List ModelItem}

theorem Exported.push (h : Exported modelId base ops entries) (start : Nat) (hne : items ≠ [])
    (hlength : items.length ≤ defaultMaxItemsPerModelOperation) :
    Exported modelId base (pushModelResetRange ops modelId start (items.map encodeItem))
      (entries ++ batchEntries start 0 items) := by
  obtain ⟨segments, rfl, hsegments, rfl⟩ := h
  refine ⟨segments ++ [(start, items)], ?_, ?_, ?_⟩
  · simp [pushModelResetRange, segmentOp]
  · intro segment hsegment
    rcases List.mem_append.mp hsegment with hold | hnew
    · exact hsegments segment hold
    · rw [List.mem_singleton.mp hnew]
      exact ⟨hne, hlength⟩
  · simp

/-- The state of the chunking loop before index `next`: the entries so far are
those already written and those pending, which end right before `next`. -/
def Gathers (modelId : ModelId) (base : List WireOperation) (entries : List (Nat × ModelItem))
    (next : Nat) (state : ChunkState) : Prop :=
  ∃ (written : List (Nat × ModelItem)) (pending : List ModelItem),
    Exported modelId base state.ops written ∧ state.chunk = pending.map encodeItem ∧
      pending.length < defaultMaxItemsPerModelOperation ∧
      (pending ≠ [] → state.chunkStart + pending.length = next) ∧
      written ++ batchEntries state.chunkStart 0 pending = entries

variable {state : ChunkState}

theorem Gathers.flush {next : Nat} (h : Gathers modelId base entries next state)
    (hne : state.chunk ≠ []) (next' : Nat) :
    Gathers modelId base entries next' (flushChunk modelId state) := by
  obtain ⟨written, pending, hexported, hchunk, hlength, -, rfl⟩ := h
  have hpending : pending ≠ [] := by
    rintro rfl
    exact hne hchunk
  refine ⟨written ++ batchEntries state.chunkStart 0 pending, [], ?_, rfl, by decide, by simp, ?_⟩
  · rw [flushChunk, hchunk]
    exact hexported.push state.chunkStart hpending (Nat.le_of_lt hlength)
  · simp [batchEntries]

theorem batchEntries_snoc (base offset : Nat) (items : List ModelItem) (item : ModelItem) :
    batchEntries base offset (items ++ [item]) =
      batchEntries base offset items ++ [(base + offset + items.length, item)] := by
  induction items generalizing offset with
  | nil => simp [batchEntries]
  | cons head rest ih =>
    simp only [List.cons_append, batchEntries, ih, List.length_cons]
    congr 4
    omega

variable {idx : Nat}

theorem Gathers.push (item : ModelItem) (h : Gathers modelId base entries idx state)
    (hstart : state.chunk = [] → state.chunkStart = idx) (bytes : Nat) :
    Gathers modelId base (entries ++ [(idx, item)]) (idx + 1)
      (if (state.chunk ++ [encodeItem item]).length = defaultMaxItemsPerModelOperation then
        flushChunk modelId { state with chunk := state.chunk ++ [encodeItem item], chunkBytes := bytes }
      else { state with chunk := state.chunk ++ [encodeItem item], chunkBytes := bytes }) := by
  obtain ⟨written, pending, hexported, hchunk, hlength, hnext, rfl⟩ := h
  have hend : state.chunkStart + pending.length = idx := by
    by_cases hempty : pending = []
    · rw [hempty, hstart (by rw [hchunk, hempty, List.map_nil])]
      rfl
    · exact hnext hempty
  have hentries : written ++ batchEntries state.chunkStart 0 pending ++ [(idx, item)] =
      written ++ batchEntries state.chunkStart 0 (pending ++ [item]) := by
    rw [batchEntries_snoc, List.append_assoc, Nat.add_zero, hend]
  have hsize : (state.chunk ++ [encodeItem item]).length = pending.length + 1 := by
    simp [hchunk]
  rw [hentries, hsize]
  split
  · rename_i hfull
    refine ⟨_, [], ?_, rfl, by decide, by simp, List.append_nil _⟩
    have hmap : state.chunk ++ [encodeItem item] = (pending ++ [item]).map encodeItem := by
      simp [hchunk]
    rw [flushChunk, hmap]
    refine hexported.push state.chunkStart (by simp) ?_
    rw [List.length_append, List.length_singleton]
    exact Nat.le_of_eq hfull
  · rename_i hfull
    refine ⟨written, pending ++ [item], hexported, by simp [hchunk], ?_, ?_, rfl⟩
    · rw [List.length_append, List.length_singleton]
      omega
    · intro _
      change state.chunkStart + (pending ++ [item]).length = idx + 1
      rw [List.length_append, List.length_singleton]
      omega

theorem addItem_gathers (payloadLen : WireModelItem → Nat) (item : ModelItem)
    (h : Gathers modelId base entries idx state) :
    Gathers modelId base (entries ++ [(idx, item)]) (idx + 1)
      (addItem payloadLen modelId idx (encodeItem item) state) := by
  unfold addItem
  have hroom : Gathers modelId base entries idx
      (if state.chunk ≠ [] ∧ state.chunkBytes + payloadLen (encodeItem item) >
        snapshotModelRangeMaxBytes then flushChunk modelId state else state) := by
    split
    · rename_i hfull
      exact h.flush hfull.1 idx
    · exact h
  generalize (if state.chunk ≠ [] ∧ state.chunkBytes + payloadLen (encodeItem item) >
    snapshotModelRangeMaxBytes then flushChunk modelId state else state) = room at hroom
  dsimp only
  by_cases hempty : room.chunk = []
  · rw [if_pos hempty]
    refine Gathers.push item (?_ : Gathers modelId base entries idx { room with chunkStart := idx })
      (fun _ => rfl) _
    obtain ⟨written, pending, hexported, hchunk, hlength, -, hentries⟩ := hroom
    have hpending : pending = [] := by
      rw [hempty] at hchunk
      exact List.map_eq_nil_iff.mp hchunk.symm
    subst hpending
    exact ⟨written, [], hexported, hchunk, hlength, by simp, hentries⟩
  · rw [if_neg hempty]
    exact hroom.push item (fun hnil => absurd hnil hempty) _

def entriesAt (model : Model) (indices : List Nat) : List (Nat × ModelItem) :=
  indices.filterMap fun idx => model.items[idx]?.map fun item => (idx, item)

theorem exportIndex_gathers (payloadLen : WireModelItem → Nat) (model : Model)
    (h : Gathers model.id base entries idx state) :
    Gathers model.id base (entries ++ entriesAt model [idx]) (idx + 1)
      (exportIndex payloadLen model state idx) := by
  unfold exportIndex entriesAt
  cases hitem : model.items[idx]? with
  | some item =>
    simp only [List.filterMap_cons, hitem, Option.map_some, List.filterMap_nil]
    exact addItem_gathers payloadLen item h
  | none =>
    simp only [List.filterMap_cons, hitem, Option.map_none, List.filterMap_nil,
      List.append_nil]
    split
    · rename_i hne
      exact h.flush hne (idx + 1)
    · rename_i hempty
      obtain ⟨written, pending, hexported, hchunk, hlength, -, hentries⟩ := h
      refine ⟨written, pending, hexported, hchunk, hlength, ?_, hentries⟩
      intro hpending
      rw [not_not.mp hempty] at hchunk
      exact absurd (List.map_eq_nil_iff.mp hchunk.symm) hpending

theorem exportIndices_gathers {start : Nat} (payloadLen : WireModelItem → Nat) (model : Model)
    (length : Nat) (h : Gathers model.id base entries start state) :
    Gathers model.id base (entries ++ entriesAt model (List.range' start length)) (start + length)
      ((List.range' start length).foldl (exportIndex payloadLen model) state) := by
  induction length generalizing start entries state with
  | zero => simpa [entriesAt] using h
  | succ length ih =>
    rw [List.range'_succ, List.foldl_cons]
    have hrest := ih (exportIndex_gathers payloadLen model h)
    have hsplit : entriesAt model [start] ++ entriesAt model (List.range' (start + 1) length) =
        entriesAt model (start :: List.range' (start + 1) length) := by
      unfold entriesAt
      rw [← List.filterMap_append, List.singleton_append]
    rw [List.append_assoc, hsplit] at hrest
    have hend : start + (length + 1) = start + 1 + length := by omega
    rw [hend]
    exact hrest

theorem exportRange_exported (payloadLen : WireModelItem → Nat) (model : Model)
    (range : CachedRange) (h : Exported model.id base ops entries) :
    Exported model.id base (exportRange payloadLen model ops range)
      (entries ++ entriesAt model (List.range' range.start range.length)) := by
  have hstart : Gathers model.id base entries range.start ⟨ops, range.start, [], 0⟩ :=
    ⟨entries, [], h, rfl, by decide, by simp, by simp [batchEntries]⟩
  have hend := exportIndices_gathers payloadLen model range.length hstart
  unfold exportRange
  dsimp only
  generalize (List.range' range.start range.length).foldl (exportIndex payloadLen model)
    ⟨ops, range.start, [], 0⟩ = state at hend
  obtain ⟨written, pending, hexported, hchunk, hlength, -, hentries⟩ := hend
  rw [← hentries, hchunk]
  by_cases hpending : pending = []
  · subst hpending
    simpa [batchEntries] using hexported
  · rw [if_pos (by simpa using hpending)]
    exact hexported.push state.chunkStart hpending (Nat.le_of_lt hlength)

def positionsOf (ranges : List CachedRange) : List Nat :=
  ranges.flatMap fun range => List.range' range.start range.length

theorem cachedRangesLoop_positions (indices : List Nat) (ranges : List CachedRange)
    (current : Option CachedRange) :
    positionsOf (cachedRangesLoop ranges current indices) =
      positionsOf ranges ++ positionsOf current.toList ++ indices := by
  induction indices generalizing ranges current with
  | nil =>
    cases current with
    | none | some range => simp [cachedRangesLoop, positionsOf]
  | cons index rest ih =>
    cases current with
    | none =>
      rw [cachedRangesLoop, ih]
      simp [positionsOf]
    | some range =>
      rw [cachedRangesLoop]
      split
      · rename_i hnext
        rw [ih]
        simp [positionsOf, List.range'_concat, hnext]
      · rw [ih]
        simp [positionsOf]

theorem cachedRanges_positions (model : Model) :
    positionsOf (cachedRanges model) = model.items.keys := by
  rw [cachedRanges, cachedRangesLoop_positions]
  simp [positionsOf]

theorem exportRanges_exported (payloadLen : WireModelItem → Nat) (model : Model)
    (ranges : List CachedRange) (h : Exported model.id base ops entries) :
    Exported model.id base (ranges.foldl (exportRange payloadLen model) ops)
      (entries ++ entriesAt model (positionsOf ranges)) := by
  induction ranges generalizing ops entries with
  | nil => simpa [positionsOf, entriesAt] using h
  | cons range rest ih =>
    have hrest := ih (exportRange_exported payloadLen model range h)
    rw [List.append_assoc] at hrest
    have hsplit : entriesAt model (positionsOf (range :: rest)) =
        entriesAt model (List.range' range.start range.length) ++
          entriesAt model (positionsOf rest) := by
      unfold entriesAt positionsOf
      rw [List.flatMap_cons, List.filterMap_append]
    rw [hsplit]
    exact hrest

theorem entriesAt_keys (model : Model) : entriesAt model model.items.keys = model.items.toList := by
  have hlookup : ∀ entries : List (Nat × ModelItem), (∀ entry ∈ entries,
      model.items[entry.1]? = some entry.2) → entriesAt model (entries.map Prod.fst) = entries := by
    intro entries
    induction entries with
    | nil => intro _; rfl
    | cons entry rest ih =>
      intro hentries
      have hfirst := hentries entry List.mem_cons_self
      have hrest := ih fun other hother => hentries other (List.mem_cons_of_mem _ hother)
      unfold entriesAt at hrest ⊢
      simp only [List.map_cons, List.filterMap_cons, hfirst, Option.map_some, hrest]
  rw [← ExtTreeMap.map_fst_toList_eq_keys]
  refine hlookup _ ?_
  rintro ⟨idx, item⟩ hmem
  exact mem_toList.mp hmem

theorem exportModel_exported (payloadLen : WireModelItem → Nat) (ops : List WireOperation)
    (model : Model) :
    Exported model.id (ops ++ [.createModel model.id (some model.modelType) model.itemCount])
      (exportModel payloadLen ops model) model.items.toList := by
  have hranges := exportRanges_exported payloadLen model (cachedRanges model)
    (Exported.nothing model.id
      (ops ++ [.createModel model.id (some model.modelType) model.itemCount]))
  rw [cachedRanges_positions, entriesAt_keys, List.nil_append] at hranges
  exact hranges

/-!
Rebuilding one model. Its cache grows by one run of items after the other.
-/

theorem writeItems_ok {m : Model} {base offset : Nat} (h : base + offset + items.length ≤ u64Max) :
    (writeItems m base offset items).2 = .ok () := by
  induction items generalizing m offset with
  | nil => rfl
  | cons item rest ih =>
    rw [List.length_cons] at h
    have hadd : checkedAdd base offset = some (base + offset) :=
      checkedAdd_eq_some.mpr ⟨by omega, rfl⟩
    rw [writeItems, hadd]
    exact ih (by omega)

theorem duplicateItem_none {blocked : ItemId → Bool} {incoming : List ItemId}
    (hblocked : ∀ item ∈ items, blocked item.itemId = false)
    (hincoming : ∀ item ∈ items, item.itemId ∉ incoming)
    (hnodup : (items.map ModelItem.itemId).Nodup) :
    duplicateItem blocked incoming items = none := by
  induction items generalizing incoming with
  | nil => rfl
  | cons item rest ih =>
    rw [List.map_cons, List.nodup_cons] at hnodup
    have hfirst := hblocked item List.mem_cons_self
    have hnew := hincoming item List.mem_cons_self
    rw [duplicateItem, if_neg (by simp [hfirst, hnew])]
    refine ih (fun other hother => hblocked other (List.mem_cons_of_mem _ hother)) ?_ hnodup.2
    intro other hother hmem
    rcases List.mem_cons.mp hmem with heq | hmem
    · exact hnodup.1 (heq ▸ List.mem_map_of_mem hother)
    · exact hincoming other (List.mem_cons_of_mem _ hother) hmem

theorem resetRange_ok {m : Model} {start : Nat} (hcount : m.itemCount ≤ u64Max)
    (hend : start + items.length ≤ m.itemCount)
    (hblocked : ∀ item ∈ items, cachedOutside m start (start + items.length) item.itemId = false)
    (hnodup : (items.map ModelItem.itemId).Nodup) :
    (resetRange m start items none).2 = .ok () := by
  have hadd : checkedAdd start items.length = some (start + items.length) :=
    checkedAdd_eq_some.mpr ⟨by omega, rfl⟩
  simp only [resetRange, Option.getD_none, Nat.lt_irrefl, if_false]
  rw [if_neg (by omega), hadd]
  simp only
  rw [if_neg (by omega), duplicateItem_none hblocked (by simp) hnodup]
  exact writeItems_ok (by omega)

structure PartOf (m M : Model) (entries : List (Nat × ModelItem)) : Prop where
  header : SameHeader m M
  indexed : Indexed M
  items : ∀ (i : Nat) (a : ModelItem), M.items[i]? = some a ↔ (i, a) ∈ entries

variable {limits : StoreLimits} {m M : Model} {entries : List (Nat × ModelItem)}

theorem PartOf.size_le (h : PartOf m M entries) : M.items.size ≤ entries.length := by
  have hkeys : keySet M.items ⊆ (entries.map Prod.fst).toFinset := by
    intro i hi
    obtain ⟨a, ha⟩ := mem_keySet.mp hi
    rw [List.mem_toFinset]
    exact List.mem_map_of_mem ((h.items i a).mp ha)
  rw [← card_keySet]
  calc (keySet M.items).card ≤ (entries.map Prod.fst).toFinset.card := Finset.card_le_card hkeys
    _ ≤ (entries.map Prod.fst).length := List.toFinset_card_le _
    _ = entries.length := List.length_map _

theorem PartOf.complete (h : PartOf m M m.items.toList) (hm : Indexed m) : M = m := by
  have hitems : M.items = m.items := by
    apply ExtTreeMap.ext_getElem?
    intro i
    apply Option.ext
    intro a
    rw [h.items, mem_toList]
  have hindex : M.idToIndex = m.idToIndex := by
    apply ExtTreeMap.ext_getElem?
    intro k
    apply Option.ext
    intro i
    have hleft := h.indexed k i
    have hright := hm k i
    rw [hitems] at hleft
    rw [hleft, hright]
  obtain ⟨hid, htype, hcount⟩ := h.header
  cases M
  cases m
  simp only [Model.mk.injEq]
  exact ⟨hid, htype, hcount, hitems, hindex⟩

theorem toList_ids_nodup (hm : Indexed m) :
    (m.items.toList.map fun entry => entry.2.itemId).Nodup := by
  refine List.Nodup.map_on ?_ (List.Nodup.of_map Prod.fst (nodup_toList_keys m.items))
  rintro ⟨i, a⟩ ha ⟨j, b⟩ hb hid
  have hi := mem_toList.mp ha
  have hj := mem_toList.mp hb
  have hij := hm.position_unique hi hj hid
  subst hij
  rw [hi] at hj
  rw [Option.some.inj hj]

section Reset

variable {start : Nat} {items : List ModelItem} {rest : List (Nat × ModelItem)}
variable (hentries : entries ++ batchEntries start 0 items ++ rest = m.items.toList)

include hentries

variable {a : ModelItem}

theorem run_lookup {k : Nat} (hk : items[k]? = some a) :
    m.items[start + k]? = some a := by
  rw [← mem_toList, ← hentries]
  refine List.mem_append_left _ (List.mem_append_right _ ?_)
  exact mem_batchEntries.mpr ⟨k, hk, by omega⟩

theorem earlier_lookup {i : Nat} (hi : (i, a) ∈ entries) :
    m.items[i]? = some a := by
  rw [← mem_toList, ← hentries]
  exact List.mem_append_left _ (List.mem_append_left _ hi)

theorem earlier_outside {i : Nat} (hi : (i, a) ∈ entries) :
    ¬(start ≤ i ∧ i < start + items.length) := by
  have hnodup := nodup_toList_keys m.items
  rw [← hentries, List.map_append, List.map_append, batchEntries_fst] at hnodup
  have hdisjoint := (List.nodup_append.mp (List.nodup_append.mp hnodup).1).2.2
  intro hin
  refine hdisjoint i (List.mem_map_of_mem (f := Prod.fst) hi) i ?_ rfl
  exact List.mem_range'_1.mpr ⟨by omega, by omega⟩

theorem run_fits (hb : Bounded limits m) (hne : items ≠ []) :
    start + items.length ≤ m.itemCount := by
  have hpos : 0 < items.length := List.length_pos_iff.mpr hne
  obtain ⟨a, ha⟩ : ∃ a, items[items.length - 1]? = some a :=
    ⟨_, List.getElem?_eq_getElem (by omega)⟩
  have := hb.index _ a (run_lookup hentries ha)
  omega

theorem run_ids_nodup (hm : Indexed m) : (items.map ModelItem.itemId).Nodup := by
  have hnodup := toList_ids_nodup hm
  rw [← hentries, List.map_append, List.map_append, batchEntries_itemId] at hnodup
  exact (List.nodup_append.mp (List.nodup_append.mp hnodup).1).2.1

theorem run_not_blocked (hm : Indexed m) (h : PartOf m M entries) {item : ModelItem}
    (hitem : item ∈ items) : cachedOutside M start (start + items.length) item.itemId = false := by
  unfold cachedOutside
  cases hindex : M.idToIndex[item.itemId]? with
  | none => rfl
  | some j =>
    -- an identity cached before the run would own two positions of the model
    exfalso
    obtain ⟨a, ha, hid⟩ := (h.indexed _ _).mp hindex
    have hentry := (h.items j a).mp ha
    obtain ⟨k, hk⟩ := List.mem_iff_getElem?.mp hitem
    have hsame := hm.position_unique (earlier_lookup hentries hentry) (run_lookup hentries hk) hid
    have hlength := (List.getElem?_eq_some_iff.mp hk).1
    exact earlier_outside hentries hentry ⟨by omega, by omega⟩

theorem run_projected (hb : Bounded limits m) (h : PartOf m M entries) (endIndex : Nat) :
    projectedCached M start endIndex items.length ≤ limits.maxCachedItemsPerModel := by
  have hsize := h.size_le
  have hcache := hb.cache
  have hlength : entries.length + items.length ≤ m.items.size := by
    rw [← ExtTreeMap.length_toList, ← hentries, List.length_append, List.length_append]
    have hrun := congrArg List.length (batchEntries_fst start 0 items)
    rw [List.length_map, List.length_range'] at hrun
    omega
  unfold projectedCached cachedItemCount at *
  omega

theorem PartOf.reset (hm : Indexed m) (hb : Bounded limits m) (hcount : m.itemCount ≤ u64Max)
    (h : PartOf m M entries) (hne : items ≠ []) :
    (resetCached limits M start items none).2 = .ok () ∧
      PartOf m (resetCached limits M start items none).1
        (entries ++ batchEntries start 0 items) := by
  have hfits : ¬ projectedCached M start (saturatingAdd start items.length) items.length >
      limits.maxCachedItemsPerModel := Nat.not_lt.mpr (run_projected hentries hb h _)
  have hcached : resetCached limits M start items none = resetRange M start items none := by
    unfold resetCached
    simp only [if_neg hfits]
  have hok : (resetRange M start items none).2 = .ok () := by
    refine resetRange_ok ?_ ?_ (fun item hitem => run_not_blocked hentries hm h hitem)
      (run_ids_nodup hentries hm)
    · rw [h.header.itemCount]
      exact hcount
    · rw [h.header.itemCount]
      exact run_fits hentries hb hne
  rw [hcached]
  obtain ⟨hindexed, hreset⟩ := resetRange_spec h.indexed start items none (by
    rw [NoOverflow, hok]
    simp)
  replace hreset := hreset hok
  refine ⟨hok, ⟨?_, ?_, ?_⟩, hindexed, ?_⟩
  · rw [hreset.id, h.header.id]
  · rw [hreset.modelType, h.header.modelType]
  · rw [hreset.itemCount]
    exact h.header.itemCount
  · intro i a
    rw [hreset.items, List.mem_append, mem_batchEntries, h.items, Nat.add_zero]
    constructor
    · rintro (⟨-, hentry⟩ | hrun)
      · exact Or.inl hentry
      · exact Or.inr hrun
    · rintro (hentry | hrun)
      · exact Or.inl ⟨earlier_outside hentries hentry, hentry⟩
      · exact Or.inr hrun

end Reset

/-!
Rebuilding the models of a store.
-/

def withModel (s : SemanticStore) (id : ModelId) (model : Model) : SemanticStore :=
  { s with models := s.models.insert id model, usedModelIds := insert id s.usedModelIds }

variable {s : SemanticStore}

theorem createModel_rebuilds {id : ModelId} (modelType : TypeRef) (itemCount : Nat)
    (hid : id ∉ s.usedModelIds) (hcount : s.models.size < s.limits.maxModelCount) :
    Rebuilds [.createModel id (some modelType) itemCount] s
      (withModel s id (Model.new id modelType itemCount)) := by
  have happly : apply (.createModel id modelType itemCount) s =
      (withModel s id (Model.new id modelType itemCount), .ok ()) := by
    change commit s (createModel s id modelType itemCount) = _
    rw [createModel, if_neg hid, if_neg (by omega)]
    rfl
  have hdecode : decodeOperation (.createModel id (some modelType) itemCount) =
      .ok (.createModel id modelType itemCount) := rfl
  have hsingle := Rebuilds.single (s := s) hdecode (by rw [happly])
  rw [happly] at hsingle
  exact hsingle

def ItemsValid (limits : StoreLimits) (m : Model) : Prop :=
  ∀ (i : Nat) (a : ModelItem), m.items[i]? = some a → validateItem limits a = .ok ()

theorem validateItems_ok (h : ∀ item ∈ items, validateItem limits item = .ok ()) :
    validateItems limits items = .ok
    () := by
  induction items with
  | nil => rfl
  | cons item rest ih =>
    rw [validateItems_cons, h item List.mem_cons_self]
    exact ih fun other hother => h other (List.mem_cons_of_mem _ hother)

theorem validateBatch_ok (hlength : items.length ≤ limits.maxItemsPerModelOperation)
    (h : ∀ item ∈ items, validateItem limits item = .ok ()) : validateBatch limits items = .ok
    () := by
  rw [validateBatch_def, validateModelItemsBatch, if_neg (by omega)]
  exact validateItems_ok h

theorem withModel_put (s : SemanticStore) (id : ModelId) (M M' : Model) :
    { withModel s id M with models := (withModel s id M).models.insert id M' } =
      withModel s id M' := by
  have hmodels : (s.models.insert id M).insert id M' = s.models.insert id M' := by
    apply ExtTreeMap.ext_getElem?
    intro k
    simp only [getElem?_put]
    split <;> rfl
  simp only [withModel, hmodels]

theorem segment_rebuilds {rest : List (Nat × ModelItem)} {segment : Nat × List ModelItem}
    (hentries : entries ++ batchEntries segment.1 0 segment.2 ++ rest = m.items.toList)
    (hm : Indexed m) (hb : Bounded s.limits m) (hcount : m.itemCount ≤ u64Max)
    (hvalid : ItemsValid s.limits m)
    (hlength : segment.2.length ≤ s.limits.maxItemsPerModelOperation) (hne : segment.2 ≠ [])
    (h : PartOf m M entries) :
    ∃ M', PartOf m M' (entries ++ batchEntries segment.1 0 segment.2) ∧
      Rebuilds [segmentOp m.id segment] (withModel s m.id M) (withModel s m.id M') := by
  obtain ⟨hok, hpart⟩ := h.reset hentries hm hb hcount hne
  refine ⟨_, hpart, ?_⟩
  have hbatch : validateBatch (withModel s m.id M).limits segment.2 = .ok () := by
    refine validateBatch_ok hlength fun item hitem => ?_
    obtain ⟨k, hk⟩ := List.mem_iff_getElem?.mp hitem
    exact hvalid _ item (run_lookup hentries hk)
  have hmodel : (withModel s m.id M).models[m.id]? = some M := by
    change (s.models.insert m.id M)[m.id]? = some M
    rw [getElem?_put, if_pos rfl]
  have happly : apply (.modelResetRange m.id segment.1 segment.2 none) (withModel s m.id M) =
      (withModel s m.id (resetCached s.limits M segment.1 segment.2 none).1, .ok ()) := by
    change modelResetRange (withModel s m.id M) m.id segment.1 segment.2 none = _
    rw [modelResetRange, hbatch, modelResetRangeChecked]
    simp only [onModel, hmodel]
    rw [withModel_put]
    exact Prod.ext rfl hok
  have hdecode : decodeOperation (segmentOp m.id segment) =
      .ok (.modelResetRange m.id segment.1 segment.2 none) := by
    simp only [segmentOp, decodeOperation, decodeItems_encodeItems, asTxnError]
    rfl
  have hsingle := Rebuilds.single (s := withModel s m.id M) hdecode (by rw [happly])
  rw [happly] at hsingle
  exact hsingle

theorem segments_rebuild {segments : List (Nat × List ModelItem)}
    (hentries : entries ++ segments.flatMap (fun segment => batchEntries segment.1 0 segment.2) =
      m.items.toList)
    (hm : Indexed m) (hb : Bounded s.limits m) (hcount : m.itemCount ≤ u64Max)
    (hvalid : ItemsValid s.limits m)
    (hsegments : ∀ segment ∈ segments, segment.2 ≠ [] ∧
      segment.2.length ≤ s.limits.maxItemsPerModelOperation)
    (h : PartOf m M entries) :
    Rebuilds (segments.map (segmentOp m.id)) (withModel s m.id M) (withModel s m.id m) := by
  induction segments generalizing M entries with
  | nil =>
    rw [List.flatMap_nil, List.append_nil] at hentries
    subst hentries
    rw [h.complete hm]
    exact Rebuilds.refl _
  | cons segment more ih =>
    rw [List.flatMap_cons, ← List.append_assoc] at hentries
    obtain ⟨hne, hlength⟩ := hsegments segment List.mem_cons_self
    obtain ⟨M', hpart, hfirst⟩ :=
      segment_rebuilds hentries hm hb hcount hvalid hlength hne h
    have hmore := ih hentries
      (fun other hother => hsegments other (List.mem_cons_of_mem _ hother)) hpart
    rw [List.map_cons, ← List.singleton_append]
    exact hfirst.append hmore

theorem partOf_new (m : Model) : PartOf m (Model.new m.id m.modelType m.itemCount) [] where
  header := ⟨rfl, rfl, rfl⟩
  indexed := indexed_new _ _ _
  items := by simp [Model.new]

theorem exportModel_rebuilds (payloadLen : WireModelItem → Nat)
    {origin : SemanticStore} (h : Rebuilds ops origin s) (hm : Indexed m)
    (hb : Bounded s.limits m) (hcount : m.itemCount ≤ u64Max) (hvalid : ItemsValid s.limits m)
    (hitems : defaultMaxItemsPerModelOperation ≤ s.limits.maxItemsPerModelOperation)
    (hid : m.id ∉ s.usedModelIds) (hroom : s.models.size < s.limits.maxModelCount) :
    Rebuilds (exportModel payloadLen ops m) origin (withModel s m.id m) := by
  obtain ⟨segments, heq, hsegments, hentries⟩ := exportModel_exported payloadLen ops m
  rw [heq]
  refine (h.append (createModel_rebuilds m.modelType m.itemCount hid hroom)).append ?_
  have hall : [] ++ segments.flatMap (fun segment => batchEntries segment.1 0 segment.2) =
      m.items.toList := hentries
  refine segments_rebuild hall hm hb hcount hvalid ?_ (partOf_new m)
  intro segment hsegment
  obtain ⟨hne, hlength⟩ := hsegments segment hsegment
  exact ⟨hne, Nat.le_trans hlength hitems⟩

structure ModelsExportable (s : SemanticStore) : Prop where
  indexed : ∀ (id : ModelId) (m : Model), s.models[id]? = some m → Indexed m
  bounded : ∀ (id : ModelId) (m : Model), s.models[id]? = some m → Bounded s.limits m
  width : ∀ (id : ModelId) (m : Model), s.models[id]? = some m → m.itemCount ≤ u64Max
  valid : ∀ (id : ModelId) (m : Model), s.models[id]? = some m → ItemsValid s.limits m
  ids : ∀ (id : ModelId) (m : Model), s.models[id]? = some m → m.id = id
  count : s.models.size ≤ s.limits.maxModelCount
  operation : defaultMaxItemsPerModelOperation ≤ s.limits.maxItemsPerModelOperation

def holdingModels (limits : StoreLimits) (models : List (ModelId × Model)) : SemanticStore :=
  { SemanticStore.withLimitsAndRevision limits 0 with
    models := insertAll ∅ models
    usedModelIds := (models.map Prod.fst).toFinset }

theorem holdingModels_snoc (limits : StoreLimits) (models : List (ModelId × Model)) (id : ModelId)
    (m : Model) : withModel (holdingModels limits models) id m =
      holdingModels limits (models ++ [(id, m)]) := by
  have hmodels : (insertAll (∅ : ExtTreeMap ModelId Model) models).insert id m =
      insertAll ∅ (models ++ [(id, m)]) := by
    unfold insertAll
    rw [List.foldl_append]
    rfl
  have hused : insert id (models.map Prod.fst).toFinset =
      ((models ++ [(id, m)]).map Prod.fst).toFinset := by
    ext k
    simp
  unfold withModel holdingModels
  simp only [hmodels, hused]

theorem exportModels_rebuild (payloadLen : WireModelItem → Nat) {original : SemanticStore}
    (h : ModelsExportable original) {models rest : List (ModelId × Model)}
    (hmodels : models ++ rest = original.models.toList)
    (hops : Rebuilds ops (SemanticStore.withLimitsAndRevision original.limits 0)
      (holdingModels original.limits models)) :
    Rebuilds (rest.foldl (fun ops entry => exportModel payloadLen ops entry.2) ops)
      (SemanticStore.withLimitsAndRevision original.limits 0)
      (holdingModels original.limits (models ++ rest)) := by
  induction rest generalizing models ops with
  | nil =>
    rw [List.append_nil]
    exact hops
  | cons entry rest ih =>
    obtain ⟨id, m⟩ := entry
    have hmem : original.models[id]? = some m := by
      rw [← mem_toList, ← hmodels]
      exact List.mem_append_right _ List.mem_cons_self
    have hid := h.ids id m hmem
    have hnodup := nodup_toList_keys original.models
    rw [← hmodels, List.map_append, List.nodup_append] at hnodup
    have hfresh : m.id ∉ (models.map Prod.fst).toFinset := by
      rw [hid, List.mem_toFinset]
      intro hold
      exact hnodup.2.2 id hold id (by simp) rfl
    have hroom : (holdingModels original.limits models).models.size <
        original.limits.maxModelCount := by
      have hsize : (insertAll (∅ : ExtTreeMap ModelId Model) models).size ≤ 0 + models.length :=
        insertAll_size_le models ∅
      have hlength := congrArg List.length hmodels
      rw [ExtTreeMap.length_toList, List.length_append, List.length_cons] at hlength
      have hcount := h.count
      change (insertAll (∅ : ExtTreeMap ModelId Model) models).size < _
      omega
    have hstep := exportModel_rebuilds payloadLen hops (h.indexed id m hmem)
      (h.bounded id m hmem) (h.width id m hmem) (h.valid id m hmem) h.operation hfresh hroom
    rw [holdingModels_snoc, hid] at hstep
    have happend : models ++ [(id, m)] ++ rest = models ++ (id, m) :: rest := by simp
    rw [List.foldl_cons, ← happend]
    exact ih (by rw [happend, hmodels]) hstep

theorem exportModels_complete (payloadLen : WireModelItem → Nat) {original : SemanticStore}
    (h : ModelsExportable original) :
    Rebuilds (original.models.toList.foldl (fun ops entry => exportModel payloadLen ops entry.2) [])
      (SemanticStore.withLimitsAndRevision original.limits 0)
      (holdingModels original.limits original.models.toList) :=
  exportModels_rebuild payloadLen h (List.nil_append _) (Rebuilds.refl _)

end Srui.Sessiond.SnapshotModels

import Srui.Basic.Runs
import Srui.Resources.ResourceStores

/-!
Which entries a publication evicts: the oldest unprotected ones, and no more of them than the
payload needs.
-/

namespace Srui.Resources.ResourceEvictions

open Std Basic.Machine Basic.Runs Basic.FiniteMaps Basic.Shelves Basic.Totals SemanticTree.Values
open Resources.ResourceStores

variable {hashBytes : Bytes → ResourceHash} {store : ResourceStore} {bytes : Bytes}
  {protectedHashes : Finset ResourceHash}

def unprotected (store : ResourceStore) (protectedHashes : Finset ResourceHash) :
    List ResourceHash := store.order.filter fun hash => decide (hash ∉ protectedHashes)

def freed (store : ResourceStore) (evicted : List ResourceHash) : Nat :=
  (evicted.map fun hash => weight entrySize store.entries[hash]?).sum

abbrev Room (store : ResourceStore) (length : Nat) (evicted : List ResourceHash) : Prop :=
  store.entries.size - evicted.length < store.limits.maxEntries ∧
    store.totalBytes - freed store evicted + length ≤ store.limits.maxTotalBytes

theorem freed_append (store : ResourceStore) (xs ys : List ResourceHash) :
    freed store (xs ++ ys) = freed store xs + freed store ys := by
  rw [freed, List.map_append, List.sum_append]
  rfl

theorem Room.append {length : Nat} {evicted : List ResourceHash}
    (h : Room store length evicted) (more : List ResourceHash) :
    Room store length (evicted ++ more) := by
  obtain ⟨hentries, hbytes⟩ := h
  rw [Room, List.length_append, freed_append]
  omega

theorem planEvictions_spec {length : Nat} {candidates : List ResourceHash}
    (hpresent : ∀ hash ∈ candidates, ∃ entry, store.entries[hash]? = some entry)
    (haddressed : store.totalBytes + length ≤ u64Max) (evicted : List ResourceHash) :
    ∃ k ≤ candidates.length,
      planEvictions store length ⟨evicted, store.entries.size - evicted.length,
          store.totalBytes - freed store evicted⟩ candidates =
        .ok ⟨evicted ++ candidates.take k,
          store.entries.size - (evicted ++ candidates.take k).length,
          store.totalBytes - freed store (evicted ++ candidates.take k)⟩ ∧
      (∀ j < k, ¬Room store length (evicted ++ candidates.take j)) ∧
      (k < candidates.length → Room store length (evicted ++ candidates.take k)) := by
  induction candidates generalizing evicted with
  | nil =>
    refine ⟨0, Nat.le_refl 0, ?_, by simp, by simp⟩
    rw [planEvictions, List.take_nil, List.append_nil]
  | cons candidate rest ih =>
    have hsum : checkedAdd (store.totalBytes - freed store evicted) length =
        some (store.totalBytes - freed store evicted + length) :=
      checkedAdd_eq_some.mpr ⟨by omega, rfl⟩
    rw [planEvictions, hsum]
    dsimp only
    by_cases hroom : Room store length evicted
    · refine ⟨0, Nat.zero_le _, ?_, by simp, fun _ => ?_⟩
      · rw [if_pos hroom, List.take_zero, List.append_nil]
      · rw [List.take_zero, List.append_nil]
        exact hroom
    obtain ⟨entry, hentry⟩ := hpresent candidate List.mem_cons_self
    rw [if_neg hroom, hentry]
    dsimp only
    obtain ⟨k, hk, hplan, hbefore, hafter⟩ := ih
      (fun hash hmem => hpresent hash (List.mem_cons_of_mem candidate hmem))
      (evicted ++ [candidate])
    have hnext : store.entries.size - evicted.length - 1 =
          store.entries.size - (evicted ++ [candidate]).length ∧
        store.totalBytes - freed store evicted - entry.bytes.length =
          store.totalBytes - freed store (evicted ++ [candidate]) := by
      have hone : freed store [candidate] = entry.bytes.length := by
        rw [freed, List.map_singleton, List.sum_singleton, hentry, weight_some, entrySize]
      rw [freed_append, hone, List.length_append, List.length_singleton]
      omega
    have htake : ∀ j, evicted ++ [candidate] ++ rest.take j =
        evicted ++ (candidate :: rest).take (j + 1) := by
      intro j
      rw [List.take_succ_cons, List.append_assoc, List.singleton_append]
    rw [htake] at hplan hafter
    refine ⟨k + 1, Nat.succ_le_succ hk, ?_, ?_, fun hlt => hafter (Nat.lt_of_succ_lt_succ hlt)⟩
    · rw [hnext.1, hnext.2, hplan]
    · intro j hj
      rcases j with - | j
      · rw [List.take_zero, List.append_nil]
        exact hroom
      · rw [← htake]
        exact hbefore j (Nat.lt_of_succ_lt_succ hj)

/-! ### A publication -/

variable (hashBytes)

/-- The payload is inserted after the shortest run of the oldest unprotected entries was evicted
that makes room for it. -/
structure Evicts (store : ResourceStore) (bytes : Bytes) (protectedHashes : Finset ResourceHash)
    (store' : ResourceStore) (k : Nat) : Prop where
  bounded : k ≤ (unprotected store protectedHashes).length
  room : Room store bytes.length ((unprotected store protectedHashes).take k)
  shortest : ∀ j < k, ¬Room store bytes.length ((unprotected store protectedHashes).take j)
  order : store'.order = store.order.filter
    (· ∉ (unprotected store protectedHashes).take k) ++ [hashBytes bytes]
  entries : ∀ hash : ResourceHash, store'.entries[hash]? =
    if hash = hashBytes bytes then some (entryOf hashBytes bytes)
    else if hash ∈ (unprotected store protectedHashes).take k then none
    else store.entries[hash]?

structure Publishes (store : ResourceStore) (bytes : Bytes)
    (protectedHashes : Finset ResourceHash) : Prop where
  refused : (∃ e, (publishResourceProtecting hashBytes store bytes protectedHashes).2 = err e) ↔
    store.limits.maxResourceBytes < bytes.length ∨
      store.entries[hashBytes bytes]? = none ∧
        ¬Room store bytes.length (unprotected store protectedHashes)
  unchanged : (∀ outcome, (publishResourceProtecting hashBytes store bytes protectedHashes).2 =
      .ok outcome → outcome.inserted = false) →
    (publishResourceProtecting hashBytes store bytes protectedHashes).1 = store
  found : ∀ outcome, (publishResourceProtecting hashBytes store bytes protectedHashes).2 =
      .ok outcome → outcome.inserted = false →
    store.entries[hashBytes bytes]? = some outcome.entry
  inserted : ∀ outcome, (publishResourceProtecting hashBytes store bytes protectedHashes).2 =
      .ok outcome → outcome.inserted = true →
    ∃ k, Evicts hashBytes store bytes protectedHashes
      (publishResourceProtecting hashBytes store bytes protectedHashes).1 k
  protects : ∀ hash ∈ protectedHashes, ∀ entry, store.entries[hash]? = some entry →
    (publishResourceProtecting hashBytes store bytes protectedHashes).1.entries[hash]? =
      some entry
  total : (publishResourceProtecting hashBytes store bytes protectedHashes).2 ≠ .error .panicked

theorem unprotected_present (h : Sound store) (protectedHashes : Finset ResourceHash) :
    ∀ hash ∈ unprotected store protectedHashes, ∃ entry, store.entries[hash]? = some entry :=
  fun hash hmem => (h.tallied.listing.mem_iff hash).mp (List.mem_of_mem_filter hmem)

theorem publish_fresh (h : Sound store) (haddressed : store.totalBytes + bytes.length ≤ u64Max)
    (hsmall : bytes.length ≤ store.limits.maxResourceBytes)
    (hfresh : store.entries[hashBytes bytes]? = none) (protectedHashes : Finset ResourceHash) :
    (∃ e, publishResourceProtecting hashBytes store bytes protectedHashes = (store, err e)) ∧
        ¬Room store bytes.length (unprotected store protectedHashes) ∨
      ∃ store' k, publishResourceProtecting hashBytes store bytes protectedHashes =
          (store', .ok ⟨hashBytes bytes, true, entryOf hashBytes bytes⟩) ∧
        Room store bytes.length (unprotected store protectedHashes) ∧
        Evicts hashBytes store bytes protectedHashes store' k := by
  obtain ⟨k, hk, hplan, hbefore, hafter⟩ := planEvictions_spec
    (unprotected_present h protectedHashes) haddressed []
  have hnone : freed store [] = 0 := rfl
  simp only [List.nil_append, List.length_nil, Nat.sub_zero, hnone] at hplan hbefore hafter
  -- Candidates are left only if there is room by then.
  have hall : ¬Room store bytes.length ((unprotected store protectedHashes).take k) →
      ¬Room store bytes.length (unprotected store protectedHashes) := by
    intro hfull
    have hlast : (unprotected store protectedHashes).length ≤ k :=
      Nat.not_lt.mp fun hlt => hfull (hafter hlt)
    rwa [List.take_of_length_le hlast] at hfull
  have hsum : checkedAdd (store.totalBytes -
      freed store ((unprotected store protectedHashes).take k)) bytes.length =
        some (store.totalBytes - freed store ((unprotected store protectedHashes).take k) +
          bytes.length) := checkedAdd_eq_some.mpr ⟨by omega, rfl⟩
  rw [publishResourceProtecting, if_neg (Nat.not_lt.mpr hsmall), hfresh]
  dsimp only
  rw [← unprotected, hplan]
  dsimp only
  rw [hsum]
  dsimp only
  by_cases hentries : store.limits.maxEntries ≤
      store.entries.size - ((unprotected store protectedHashes).take k).length
  · rw [if_pos hentries]
    exact Or.inl ⟨⟨_, rfl⟩, hall fun hroom => Nat.not_lt.mpr hentries hroom.1⟩
  rw [if_neg hentries]
  by_cases hbytes : store.limits.maxTotalBytes < store.totalBytes -
      freed store ((unprotected store protectedHashes).take k) + bytes.length
  · rw [if_pos hbytes]
    exact Or.inl ⟨⟨_, rfl⟩, hall fun hroom => Nat.not_lt.mpr hroom.2 hbytes⟩
  rw [if_neg hbytes]
  have hroom : Room store bytes.length ((unprotected store protectedHashes).take k) :=
    ⟨Nat.lt_of_not_le hentries, Nat.not_lt.mp hbytes⟩
  refine Or.inr ⟨_, k, rfl, ?_, hk, hroom, hbefore, ?_, ?_⟩
  · have hmore := hroom.append ((unprotected store protectedHashes).drop k)
    rwa [List.take_append_drop] at hmore
  · obtain ⟨hshelf, -⟩ := foldl_remove store ((unprotected store protectedHashes).take k)
    have horder := congrArg Shelf.order hshelf
    rw [order_removeAll h.tallied.listing.nodup] at horder
    exact congrArg (· ++ [hashBytes bytes]) horder
  · intro hash
    obtain ⟨hshelf, -⟩ := foldl_remove store ((unprotected store protectedHashes).take k)
    have hkept : (((unprotected store protectedHashes).take k).foldl ResourceStore.remove
        store).entries = (store.shelf.removeAll entrySize
          ((unprotected store protectedHashes).take k)).entries := congrArg Shelf.entries hshelf
    change (ExtTreeMap.insert _ _ _)[hash]? = _
    rw [hkept, getElem?_put]
    by_cases hself : hash = hashBytes bytes
    · rw [if_pos hself.symm, if_pos hself]
    · rw [if_neg (Ne.symm hself), if_neg hself]
      split
      · rename_i hevicted
        exact lookup_removeAll_of_mem hevicted
      · rename_i hretained
        exact lookup_removeAll hretained

theorem publishes (h : Sound store) (haddressed : store.totalBytes + bytes.length ≤ u64Max)
    (protectedHashes : Finset ResourceHash) :
    Publishes hashBytes store bytes protectedHashes := by
  have hprotects : ∀ hash ∈ protectedHashes, ∀ entry, store.entries[hash]? = some entry →
      (publishResourceProtecting hashBytes store bytes protectedHashes).1.entries[hash]? =
        some entry := fun hash hmem entry hentry => publish_keeps hashBytes hmem hentry bytes
  have htotal := publish_ne_panicked hashBytes h bytes protectedHashes
  by_cases hlarge : store.limits.maxResourceBytes < bytes.length
  · have hresult : publishResourceProtecting hashBytes store bytes protectedHashes =
        (store, err (.resourceTooLarge bytes.length store.limits.maxResourceBytes)) := by
      rw [publishResourceProtecting, if_pos hlarge]
    refine ⟨⟨fun _ => Or.inl hlarge, fun _ => ⟨_, congrArg Prod.snd hresult⟩⟩, ?_, ?_, ?_,
      hprotects, htotal⟩
    · exact fun _ => congrArg Prod.fst hresult
    · rw [hresult]
      simp
    · rw [hresult]
      simp
  have hsmall := Nat.not_lt.mp hlarge
  rcases hfound : store.entries[hashBytes bytes]? with - | existing
  · rcases publish_fresh hashBytes h haddressed hsmall hfound protectedHashes with
      ⟨⟨e, hresult⟩, hfull⟩ | ⟨store', k, hresult, hroom, hevicts⟩
    · refine ⟨⟨fun _ => Or.inr ⟨hfound, hfull⟩, fun _ => ⟨e, congrArg Prod.snd hresult⟩⟩, ?_, ?_,
        ?_, hprotects, htotal⟩
      · exact fun _ => congrArg Prod.fst hresult
      · rw [hresult]
        simp
      · rw [hresult]
        simp
    · rw [hresult] at hprotects htotal
      refine ⟨⟨?_, ?_⟩, ?_, ?_, ?_, hresult ▸ hprotects, hresult ▸ htotal⟩
      · rw [hresult]
        rintro ⟨e, he⟩
        cases he
      · rintro (hover | ⟨-, hfull⟩)
        · exact absurd hover hlarge
        · exact absurd hroom hfull
      · rw [hresult]
        intro hnever
        cases hnever _ rfl
      · rw [hresult]
        intro outcome hok hkept
        cases hok
        cases hkept
      · rw [hresult]
        exact fun _ _ _ => ⟨k, hevicts⟩
  · have hresult : publishResourceProtecting hashBytes store bytes protectedHashes =
        (store, .ok ⟨hashBytes bytes, false, existing⟩) := by
      rw [publishResourceProtecting, if_neg hlarge, hfound]
    refine ⟨⟨?_, ?_⟩, ?_, ?_, ?_, hprotects, htotal⟩
    · rw [hresult]
      rintro ⟨e, he⟩
      cases he
    · rintro (hover | ⟨hnone, -⟩)
      · exact absurd hover hlarge
      · rw [hfound] at hnone
        cases hnone
    · exact fun _ => congrArg Prod.fst hresult
    · rw [hresult]
      intro outcome hok _
      cases hok
      exact hfound
    · rw [hresult]
      intro outcome hok hinserted
      cases hok
      cases hinserted

/-! ### Runs -/

/-- A call of `publish_resource_protecting`. -/
structure Call where
  bytes : Bytes
  protectedHashes : Finset ResourceHash

/-- A store, with the number of the insertion that each hash was last put in by. -/
structure System where
  store : ResourceStore
  insertions : Nat := 0
  insertedAt : ResourceHash → Nat := fun _ => 0

def step (s : System) (call : Call) : System :=
  match publishResourceProtecting hashBytes s.store call.bytes call.protectedHashes with
  | (store, .ok ⟨hash, true, _⟩) =>
    { store := store, insertions := s.insertions + 1,
      insertedAt := Function.update s.insertedAt hash s.insertions }
  | (store, _) => { s with store := store }

structure Ordered (s : System) : Prop where
  increasing : s.store.order.Pairwise fun a b => s.insertedAt a < s.insertedAt b
  past : ∀ hash ∈ s.store.order, s.insertedAt hash < s.insertions

theorem ordered_step {s : System} (hsound : Sound s.store) (h : Ordered s) (call : Call) :
    Ordered (step hashBytes s call) := by
  have hspec := publish_spec hashBytes s.store call.bytes call.protectedHashes
  rw [step]
  generalize publishResourceProtecting hashBytes s.store call.bytes call.protectedHashes =
    result at hspec ⊢
  obtain ⟨store', answer⟩ := result
  dsimp only at hspec
  rcases hspec with ⟨hsame, hfound⟩ | ⟨hok, hinserts⟩
  · subst hsame
    split
    · rename_i hash entry heq
      cases heq
      exact absurd (hfound _ rfl).1 Bool.noConfusion
    · rename_i store answer _ heq
      cases heq
      exact h
  · subst hok
    dsimp only
    obtain ⟨plan, nextTotal, -, -, -, -, hshelf⟩ := hinserts.planned
    have hlisting := hsound.tallied.listing
    have hfresh : hashBytes call.bytes ∉ s.store.order :=
      hlisting.not_mem_of_fresh hinserts.fresh
    have horder : store'.order = s.store.order.filter (· ∉ plan.evictions) ++
        [hashBytes call.bytes] := by
      have hkept := order_removeAll (f := entrySize) (s := s.store.shelf) hlisting.nodup
        plan.evictions
      have hafter := congrArg Shelf.order hshelf
      dsimp only at hafter
      rw [hkept] at hafter
      exact hafter
    have hkept : ∀ hash ∈ s.store.order.filter (· ∉ plan.evictions),
        Function.update s.insertedAt (hashBytes call.bytes) s.insertions hash =
          s.insertedAt hash ∧ s.insertedAt hash < s.insertions := by
      intro hash hmem
      have hold := List.mem_of_mem_filter hmem
      refine ⟨Function.update_of_ne ?_ _ _, h.past hash hold⟩
      rintro rfl
      exact hfresh hold
    constructor
    · dsimp only
      rw [horder, List.pairwise_append]
      refine ⟨?_, List.pairwise_singleton _ _, ?_⟩
      · refine (h.increasing.filter _).imp_of_mem ?_
        intro a b ha hb hlt
        rw [(hkept a ha).1, (hkept b hb).1]
        exact hlt
      · intro a ha b hb
        rw [List.mem_singleton.mp hb, (hkept a ha).1, Function.update_self]
        exact (hkept a ha).2
    · intro hash hmem
      dsimp only at hmem ⊢
      rw [horder] at hmem
      rcases List.mem_append.mp hmem with hold | hnew
      · rw [(hkept hash hold).1]
        exact Nat.lt_succ_of_lt (hkept hash hold).2
      · rw [List.mem_singleton.mp hnew, Function.update_self]
        exact Nat.lt_succ_self _

theorem store_step (s : System) (call : Call) : (step hashBytes s call).store =
    (publishResourceProtecting hashBytes s.store call.bytes call.protectedHashes).1 := by
  rw [step]
  split
  · rename_i heq
    rw [heq]
  · rename_i heq
    rw [heq]

/-- The store is within its limits and in the order of the insertions, and a payload that the
address space can hold beside it is published as it should. -/
structure Keeps (s : System) : Prop where
  sound : Sound s.store
  ordered : Ordered s
  publishes : ∀ bytes protectedHashes, s.store.totalBytes + bytes.length ≤ u64Max →
    Publishes hashBytes s.store bytes protectedHashes

theorem store_bounded_and_exact (limits : ResourceLimits) (calls : List Call) :
    EveryState (step hashBytes) (Keeps hashBytes) { store := .withLimits limits } calls := by
  have hany : EveryStep (step hashBytes) (fun _ _ => True) { store := .withLimits limits } calls :=
    everyStep_of_forall (fun _ _ => trivial) _ calls
  have hkept : EveryState (step hashBytes) (fun s => Sound s.store ∧ Ordered s)
      { store := .withLimits limits } calls := by
    refine hany.everyState ?_ ⟨withLimits_sound limits, List.Pairwise.nil, nofun⟩
    rintro s call ⟨hsound, hordered⟩ -
    refine ⟨?_, ordered_step hashBytes hsound hordered call⟩
    rw [store_step]
    exact publish_sound hashBytes hsound call.bytes call.protectedHashes
  refine EveryState.mono ?_ hkept
  rintro s ⟨hsound, hordered⟩
  exact ⟨hsound, hordered, fun bytes protectedHashes haddressed =>
    publishes hashBytes hsound haddressed protectedHashes⟩

end Srui.Resources.ResourceEvictions

import Srui.Client.ResourceCaches

/-!
What the operations of the resource cache can do to it: rearrange the committed order
and change references, give up assemblies, announce or extend one, or commit an image.
-/

namespace Srui.Client.CacheEffects

open Std Basic.Machine Basic.FiniteMaps Basic.Totals Basic.Shelves SemanticTree.Values
open Client.ResourceCaches

def imageSize (image : ValidatedDecodedImage) : Nat := estimatedDecodedBytes image.cgImage

def committedShelf (cache : ResourceCache) : Shelf ResourceHash ValidatedDecodedImage compare :=
  ⟨cache.committedOrder, cache.committed, cache.committedDecodedBytes⟩

def withCommitted (cache : ResourceCache)
    (shelf : Shelf ResourceHash ValidatedDecodedImage compare) : ResourceCache :=
  { cache with
    committedOrder := shelf.order
    committed := shelf.entries
    committedDecodedBytes := shelf.total }

theorem removeCommitted_eq (cache : ResourceCache) (hash : ResourceHash) :
    removeCommitted cache hash =
      withCommitted cache ((committedShelf cache).remove imageSize hash) := by
  rw [removeCommitted, Shelf.remove]
  rcases himage : cache.committed[hash]? with _ | image
  · have herase : cache.committed.erase hash = cache.committed := by
      refine ExtTreeMap.ext_getElem? fun k => ?_
      rw [getElem?_drop]
      split
      · rename_i hk
        rw [← hk, himage]
      · rfl
    simp [withCommitted, committedShelf, himage, herase]
  · simp [withCommitted, committedShelf, himage, imageSize]

theorem foldl_removeCommitted (cache : ResourceCache) (hashes : List ResourceHash) :
    hashes.foldl removeCommitted cache =
      withCommitted cache ((committedShelf cache).removeAll imageSize hashes) := by
  induction hashes generalizing cache with
  | nil => rfl
  | cons hash rest ih =>
    rw [List.foldl_cons, ih, removeCommitted_eq]
    rfl

theorem planEvictions_subset (cache : ResourceCache) (decodedBytes : Nat) (plan : EvictionPlan)
    (candidates : List ResourceHash) :
    (planEvictions cache decodedBytes plan candidates).evicted ⊆ plan.evicted ++ candidates := by
  induction candidates generalizing plan with
  | nil =>
    rw [planEvictions, List.append_nil]
    exact List.Subset.refl _
  | cons candidate rest ih =>
    rw [planEvictions]
    split
    · exact List.subset_append_left _ _
    split
    · intro hash hmem
      have hbefore := ih plan hmem
      rw [List.mem_append] at hbefore
      rw [List.mem_append, List.mem_cons]
      exact hbefore.imp_right .inr
    · rename_i existing hexisting
      have hsubset := ih ⟨plan.evicted ++ [candidate], plan.projectedCount - 1,
        plan.projectedBytes - estimatedDecodedBytes existing.cgImage⟩
      rwa [List.append_assoc, List.singleton_append] at hsubset

theorem planEvictions_planned {cache : ResourceCache} {decodedBytes : Nat} {plan : EvictionPlan}
    {candidates : List ResourceHash} (hnodup : (plan.evicted ++ candidates).Nodup)
    (hplan : Planned imageSize (committedShelf cache) plan.evicted plan.projectedCount
      plan.projectedBytes) :
    Planned imageSize (committedShelf cache)
      (planEvictions cache decodedBytes plan candidates).evicted
      (planEvictions cache decodedBytes plan candidates).projectedCount
      (planEvictions cache decodedBytes plan candidates).projectedBytes := by
  induction candidates generalizing plan with
  | nil => exact hplan
  | cons candidate rest ih =>
    rw [planEvictions]
    split
    · exact hplan
    split
    · refine ih ?_ hplan
      exact hnodup.sublist (List.Sublist.append_left (List.sublist_cons_self _ _) _)
    · rename_i existing hexisting
      have hnew : candidate ∉ plan.evicted := fun hmem =>
        (List.nodup_append.mp hnodup).2.2 candidate hmem candidate List.mem_cons_self rfl
      refine ih ?_ (hplan.next hexisting hnew)
      rwa [List.append_assoc, List.singleton_append]

/-- An image is committed in place of evicted ones, none of them referenced. -/
structure Inserts (cache : ResourceCache) (image : ValidatedDecodedImage)
    (evicted : List ResourceHash) (cache' : ResourceCache) : Prop where
  fresh : cache.committed[image.hash]? = none
  unreferenced : ∀ hash ∈ evicted, isLiveReference cache hash = false
  cache_eq : cache' = withCommitted cache
    (((committedShelf cache).removeAll imageSize evicted).push imageSize image.hash image)
  count_le : cache'.committed.size ≤ cache.limits.maxCommittedEntries
  bytes_le : cache'.committedDecodedBytes ≤ cache.limits.maxCommittedDecodedBytes

theorem insertCommitted_cases {cache : ResourceCache}
    (h : Tallied imageSize (committedShelf cache)) (image : ValidatedDecodedImage)
    (hfresh : cache.committed[image.hash]? = none) :
    (∃ fault, insertCommitted cache image = (cache, .error fault)) ∨
      ∃ evicted cache', Inserts cache image evicted cache' ∧
        insertCommitted cache image = (cache', .ok evicted) := by
  have habsent : ¬ cache.committed.contains image.hash = true := by
    rw [ExtTreeMap.contains_eq_isSome_getElem?, hfresh]
    simp
  rw [insertCommitted, if_neg habsent]
  extract_lets decodedBytes plan kept
  split
  · exact .inl ⟨_, rfl⟩
  split
  · exact .inl ⟨_, rfl⟩
  rename_i hcount
  split
  · exact .inl ⟨_, rfl⟩
  split
  · exact .inl ⟨_, rfl⟩
  rename_i hbytes
  refine .inr ⟨plan.evicted, _, ?_, rfl⟩
  have hnodup : ([] ++ cache.committedOrder.filter
      fun candidate => !isLiveReference cache candidate).Nodup :=
    h.listing.nodup.filter _
  have hplanned : Planned imageSize (committedShelf cache) plan.evicted plan.projectedCount
      plan.projectedBytes := planEvictions_planned hnodup (Planned.start (committedShelf cache))
  have hmissing : ((committedShelf cache).removeAll imageSize plan.evicted).entries[image.hash]? =
      none := by
    refine Option.eq_none_iff_forall_ne_some.mpr fun entry hentry => ?_
    have hbefore : cache.committed[image.hash]? = some entry := lookup_of_removeAll hentry
    rw [hfresh] at hbefore
    exact absurd hbefore (by simp)
  have hkept : kept = withCommitted cache ((committedShelf cache).removeAll imageSize
      plan.evicted) := foldl_removeCommitted cache plan.evicted
  refine ⟨hfresh, ?_, ?_, ?_, ?_⟩
  · intro hash hmem
    have hcandidate := planEvictions_subset cache decodedBytes _ _ hmem
    rw [List.nil_append, List.mem_filter] at hcandidate
    simpa using hcandidate.2
  · rw [hkept, hplanned.bytes_eq]
    rfl
  · rw [hkept]
    show (((committedShelf cache).removeAll imageSize plan.evicted).entries.insert image.hash
      image).size ≤ _
    rw [size_insert_of_fresh image hmissing, ← hplanned.count_eq]
    exact Nat.lt_of_not_le hcount
  · exact Nat.le_of_not_lt hbytes

inductive Arrival where
  | metadata (input : ResourceMetadataInput)
  | chunk (input : ResourceChunkInput)

def admitted (cache : ResourceCache) (owner : Option Nat) : Bool :=
  cache.activeReferenceOwnerEpoch = owner

def arrival (cache : ResourceCache) : Input → Option Arrival
  | .ingestMetadata input owner => if admitted cache owner then some (.metadata input) else none
  | .ingestChunk input owner => if admitted cache owner then some (.chunk input) else none
  | _ => none

/-- The bytes that came to be committed: `base` is the cache once the assembly is given
up. -/
structure Finalized (oracles : Oracles) (base : ResourceCache) (metadata : ResourceMetadataInput)
    (bytes : Bytes) (cache' : ResourceCache) : Prop where
  length_eq : bytes.length = metadata.encodedLength
  digest_eq : oracles.sha256 bytes = metadata.resourceHash.bytes
  inserted : ∃ cgImage evicted,
    oracles.decodeRasterImage bytes metadata.mediaType = .ok cgImage ∧
      Inserts base ⟨metadata.resourceHash, metadata.mediaType, metadata.encodedLength, cgImage⟩
        evicted cache'

theorem finalizeAssembly_cases (oracles : Oracles) {base : ResourceCache}
    (h : Tallied imageSize (committedShelf base)) {metadata : ResourceMetadataInput}
    (hfresh : base.committed[metadata.resourceHash]? = none) (bytes : Bytes) :
    (∃ fault, finalizeAssembly oracles base metadata.resourceHash metadata bytes =
      (base, .error fault)) ∨
    ∃ cache' commit, Finalized oracles base metadata bytes cache' ∧
      finalizeAssembly oracles base metadata.resourceHash metadata bytes =
        (cache', .ok commit) := by
  rw [finalizeAssembly]
  split
  · exact .inl ⟨_, rfl⟩
  rename_i hlength
  split
  swap
  · exact .inl ⟨_, rfl⟩
  rename_i hdigest
  extract_lets actualHash
  split
  · exact .inl ⟨_, rfl⟩
  rename_i hhash
  split
  · exact .inl ⟨_, rfl⟩
  rename_i cgImage hdecode
  have hdigest : oracles.sha256 bytes = metadata.resourceHash.bytes :=
    congrArg ResourceHash.bytes (not_not.mp hhash)
  rcases insertCommitted_cases h ⟨metadata.resourceHash, metadata.mediaType,
    metadata.encodedLength, cgImage⟩ hfresh with ⟨fault, hfault⟩ | ⟨evicted, cache', hins, heq⟩
  · simp only [hfault]
    exact .inl ⟨fault, rfl⟩
  · simp only [heq]
    exact .inr ⟨cache', _, ⟨not_not.mp hlength, hdigest, cgImage, evicted, hdecode, hins⟩, rfl⟩

structure Assembling (limits : ResourceLimits) (hash : ResourceHash)
    (assembly : PartialAssembly) : Prop where
  hash_eq : assembly.metadata.resourceHash = hash
  offset_eq : assembly.nextOffset = assembly.buffer.length
  unfinished : assembly.buffer.length < assembly.encodedLength
  fits : assembly.encodedLength ≤ intMax
  mediaType_le : assembly.metadata.mediaType.utf8ByteSize ≤ limits.maxMediaTypeBytes

structure Sound (cache : ResourceCache) : Prop where
  tallied : Tallied imageSize (committedShelf cache)
  count_le : cache.committed.size ≤ cache.limits.maxCommittedEntries
  bytes_le : cache.committedDecodedBytes ≤ cache.limits.maxCommittedDecodedBytes
  inFlight_eq : cache.inFlightBytes = total PartialAssembly.encodedLength cache.partials
  inFlight_le : cache.inFlightBytes ≤ cache.limits.maxInFlightBytes
  assemblies_le : cache.partials.size ≤ cache.limits.maxConcurrentAssemblies
  assembling : ∀ (hash : ResourceHash) (assembly : PartialAssembly),
    cache.partials[hash]? = some assembly →
      cache.committed[hash]? = none ∧ Assembling cache.limits hash assembly
  mediaType_le : ∀ (hash : ResourceHash) (image : ValidatedDecodedImage),
    cache.committed[hash]? = some image →
      image.mediaType.utf8ByteSize ≤ cache.limits.maxMediaTypeBytes

/-- The ways an operation can leave the cache, with what has arrived and how the call
ended. -/
inductive Effect (oracles : Oracles) (cache : ResourceCache) :
    Option Arrival → Attempt (Option ResourceCommit) → Prop where
  | refers {arrived : Option Arrival} {order : List ResourceHash} {live : Finset ResourceHash}
      {epoch : Option Nat} {lease : Option RenderReferenceLease}
      {result : Outcome ResourceCacheError (Option ResourceCommit)}
      (hperm : order.Perm cache.committedOrder)
      (hignored : ∀ chunk, arrived = some (.chunk chunk) →
        cache.partials[chunk.resourceHash]? = none) :
      Effect oracles cache arrived
        ({ cache with
            committedOrder := order
            liveReferences := live
            activeReferenceOwnerEpoch := epoch
            renderReferenceLease := lease }, result)
  | clears {arrived : Option Arrival} {live : Finset ResourceHash} {epoch : Option Nat}
      {lease : Option RenderReferenceLease}
      {result : Outcome ResourceCacheError (Option ResourceCommit)} :
      Effect oracles cache arrived
        ({ cache with
            partials := ∅
            inFlightBytes := 0
            liveReferences := live
            activeReferenceOwnerEpoch := epoch
            renderReferenceLease := lease }, result)
  | discards {arrived : Option Arrival} {hash : ResourceHash}
      {result : Outcome ResourceCacheError (Option ResourceCommit)}
      (hchunk : ∀ chunk, arrived = some (.chunk chunk) → chunk.resourceHash = hash) :
      Effect oracles cache arrived (discardPartial cache hash, result)
  | announces {input : ResourceMetadataInput}
      (hcommitted : cache.committed[input.resourceHash]? = none)
      (hheld : cache.partials[input.resourceHash]? = none)
      (hlength : 0 < input.encodedLength ∧ input.encodedLength ≤ intMax)
      (hmediaType : input.mediaType.utf8ByteSize ≤ cache.limits.maxMediaTypeBytes)
      (hroom : cache.partials.size < cache.limits.maxConcurrentAssemblies)
      (hinFlight : cache.inFlightBytes + input.encodedLength ≤ cache.limits.maxInFlightBytes) :
      Effect oracles cache (some (.metadata input))
        ({ cache with
            partials := cache.partials.insert input.resourceHash (.init input)
            inFlightBytes := cache.inFlightBytes + input.encodedLength }, .ok none)
  | appends {input : ResourceChunkInput} {assembly : PartialAssembly}
      (hheld : cache.partials[input.resourceHash]? = some assembly)
      (hoffset : input.byteOffset = assembly.nextOffset)
      (hmore : assembly.nextOffset + input.data.length < assembly.encodedLength) :
      Effect oracles cache (some (.chunk input))
        ({ cache with
            partials := cache.partials.insert input.resourceHash
              { assembly with
                buffer := assembly.buffer ++ input.data
                nextOffset := assembly.nextOffset + input.data.length } }, .ok none)
  | commitsEmpty {input : ResourceMetadataInput} {cache' : ResourceCache}
      {commit : Option ResourceCommit}
      (hheld : cache.partials[input.resourceHash]? = none)
      (hmediaType : input.mediaType.utf8ByteSize ≤ cache.limits.maxMediaTypeBytes)
      (hfinalized : Finalized oracles cache input [] cache') :
      Effect oracles cache (some (.metadata input)) (cache', .ok commit)
  | commitsLast {input : ResourceChunkInput} {assembly : PartialAssembly}
      {cache' : ResourceCache} {commit : Option ResourceCommit}
      (hheld : cache.partials[input.resourceHash]? = some assembly)
      (hoffset : input.byteOffset = assembly.nextOffset)
      (hfinalized : Finalized oracles (discardPartial cache input.resourceHash) assembly.metadata
        (assembly.buffer ++ input.data) cache') :
      Effect oracles cache (some (.chunk input)) (cache', .ok commit)

variable {oracles : Oracles} {cache : ResourceCache}

theorem Effect.unchanged {arrived : Option Arrival}
    (hignored : ∀ chunk, arrived = some (.chunk chunk) →
      cache.partials[chunk.resourceHash]? = none)
    (result : Outcome ResourceCacheError (Option ResourceCommit)) :
    Effect oracles cache arrived (cache, result) :=
  .refers (List.Perm.refl _) hignored

theorem touchCommitted_perm (cache : ResourceCache) (hash : ResourceHash) :
    ∃ order, order.Perm cache.committedOrder ∧
      touchCommitted cache hash = { cache with committedOrder := order } := by
  rw [touchCommitted]
  split
  · rename_i hmem
    refine ⟨_, ?_, rfl⟩
    exact (List.perm_append_comm.trans (List.perm_cons_erase hmem).symm)
  · exact ⟨_, List.Perm.refl _, rfl⟩

theorem foldl_touchCommitted_perm (cache : ResourceCache) (hashes : List ResourceHash) :
    ∃ order, order.Perm cache.committedOrder ∧
      hashes.foldl touchCommitted cache = { cache with committedOrder := order } := by
  induction hashes generalizing cache with
  | nil => exact ⟨_, List.Perm.refl _, rfl⟩
  | cons hash rest ih =>
    obtain ⟨first, hfirst, htouch⟩ := touchCommitted_perm cache hash
    obtain ⟨order, horder, hrest⟩ := ih (touchCommitted cache hash)
    refine ⟨order, ?_, ?_⟩
    · rw [htouch] at horder
      exact horder.trans hfirst
    · rw [List.foldl_cons, hrest, htouch]

theorem discardPartial_replaced {hash : ResourceHash} {assembly other : PartialAssembly}
    (h : cache.partials[hash]? = some assembly)
    (hlength : other.encodedLength = assembly.encodedLength) :
    discardPartial { cache with partials := cache.partials.insert hash other } hash =
      discardPartial cache hash := by
  have hinsert : (cache.partials.insert hash other)[hash]? = some other := by
    rw [getElem?_put, if_pos rfl]
  have herase : (cache.partials.insert hash other).erase hash = cache.partials.erase hash := by
    refine ExtTreeMap.ext_getElem? fun k => ?_
    rw [getElem?_drop, getElem?_drop, getElem?_put]
    split <;> rfl
  simp only [discardPartial, hinsert, h, herase, hlength]

theorem ingestMetadataForActiveOwner_effect (h : Sound cache) (input : ResourceMetadataInput) :
    Effect oracles cache (some (.metadata input))
      (ingestMetadataForActiveOwner oracles cache input) := by
  have hnoChunk : ∀ chunk, some (Arrival.metadata input) = some (.chunk chunk) →
      cache.partials[chunk.resourceHash]? = none := by simp
  rw [ingestMetadataForActiveOwner]
  split
  · obtain ⟨order, hperm, htouch⟩ := touchCommitted_perm cache input.resourceHash
    rw [htouch]
    exact .refers hperm hnoChunk
  rename_i hcommitted
  split
  · split
    · exact .discards (by simp)
    · exact .unchanged hnoChunk _
  rename_i hheld
  split
  · exact .unchanged hnoChunk _
  rename_i hbudget
  have hmediaType : input.mediaType.utf8ByteSize ≤ cache.limits.maxMediaTypeBytes := by
    rw [validateMetadataBudget] at hbudget
    split at hbudget
    · exact absurd hbudget (by simp)
    split at hbudget
    · exact absurd hbudget (by simp)
    · rename_i hle
      exact Nat.le_of_not_lt hle
  split
  · rcases finalizeAssembly_cases oracles h.tallied hcommitted [] with
      ⟨fault, hfault⟩ | ⟨cache', commit, hfinalized, heq⟩
    · rw [hfault]
      exact .unchanged hnoChunk _
    · rw [heq]
      exact .commitsEmpty hheld hmediaType hfinalized
  rename_i hpositive
  split
  · exact .unchanged hnoChunk _
  rename_i hroom
  split
  · exact .unchanged hnoChunk _
  rename_i hfits
  split
  · exact .unchanged hnoChunk _
  rename_i nextInFlight hsum
  have hnext : nextInFlight = cache.inFlightBytes + input.encodedLength := by
    rw [addInt] at hsum
    split at hsum
    · exact (Option.some.inj hsum).symm
    · exact absurd hsum (by simp)
  split
  · exact .unchanged hnoChunk _
  rename_i hinFlight
  split
  · exact .unchanged hnoChunk _
  · rw [hnext] at hinFlight ⊢
    exact .announces hcommitted hheld ⟨Nat.pos_of_ne_zero hpositive, Nat.le_of_not_lt hfits⟩
      hmediaType (Nat.lt_of_not_le hroom) (Nat.le_of_not_lt hinFlight)

theorem discardPartial_committedShelf (cache : ResourceCache) (hash : ResourceHash) :
    committedShelf (discardPartial cache hash) = committedShelf cache := by
  rw [discardPartial]
  split <;> rfl

theorem ingestChunkForActiveOwner_effect (h : Sound cache) (input : ResourceChunkInput) :
    Effect oracles cache (some (.chunk input))
      (ingestChunkForActiveOwner oracles cache input) := by
  rw [ingestChunkForActiveOwner]
  split
  · rename_i existing hcommitted
    obtain ⟨order, hperm, htouch⟩ := touchCommitted_perm cache input.resourceHash
    rw [htouch]
    refine .refers hperm ?_
    rintro chunk ⟨⟩
    -- What is committed is not being assembled.
    refine Option.eq_none_iff_forall_ne_some.mpr fun assembly hassembly => ?_
    rw [(h.assembling _ assembly hassembly).1] at hcommitted
    exact absurd hcommitted nofun
  rename_i hcommitted
  split
  · rename_i hheld
    refine .unchanged ?_ _
    rintro chunk ⟨⟩
    exact hheld
  rename_i assembly hheld
  obtain ⟨-, hassembling⟩ := h.assembling _ assembly hheld
  have hsame : ∀ chunk, some (Arrival.chunk input) = some (.chunk chunk) →
      chunk.resourceHash = input.resourceHash := by
    rintro chunk ⟨⟩
    rfl
  split
  · exact .discards hsame
  split
  · exact .discards hsame
  rename_i hoffset
  split
  · rename_i hbeyond
    have hoffsetEq := hassembling.offset_eq
    have hunfinished := hassembling.unfinished
    omega
  split
  · exact .discards hsame
  rename_i hremaining
  extract_lets extended stored
  split
  · rename_i hmore
    exact .appends hheld (not_not.mp hoffset) hmore
  have hstored : discardPartial stored input.resourceHash =
      discardPartial cache input.resourceHash := discardPartial_replaced hheld rfl
  rw [hstored]
  split
  · exact .discards hsame
  have hshelf := discardPartial_committedShelf cache input.resourceHash
  have hfresh : (discardPartial cache input.resourceHash).committed[
      assembly.metadata.resourceHash]? = none := by
    have hentries : (discardPartial cache input.resourceHash).committed = cache.committed :=
      congrArg Shelf.entries hshelf
    rw [hentries, hassembling.hash_eq, hcommitted]
  have htallied : Tallied imageSize (committedShelf (discardPartial cache input.resourceHash)) :=
    hshelf ▸ h.tallied
  have hcases := finalizeAssembly_cases oracles htallied hfresh extended.buffer
  rw [hassembling.hash_eq] at hcases
  rcases hcases with ⟨fault, hfault⟩ | ⟨cache', commit, hfinalized, heq⟩
  · rw [hfault]
    exact .discards hsame
  · rw [heq]
    exact .commitsLast hheld (not_not.mp hoffset) hfinalized

theorem perform_effect (oracles : Oracles) (h : Sound cache) (input : Input) :
    Effect oracles cache (arrival cache input) (perform oracles cache input) := by
  have hquiet : ∀ result, Effect oracles cache none (cache, result) :=
    .unchanged (nofun : ∀ chunk, none = some (Arrival.chunk chunk) → _)
  rcases input with ⟨metadata, owner⟩ | ⟨chunk, owner⟩ | hash | hashes | ⟨hashes, owner⟩ | owner |
    ⟨epoch, live⟩ | epoch | ⟨owner, token, hashes⟩ | ⟨owner, token, live⟩
  · rcases owner with _ | owner
    · rw [perform, arrival, ingestMetadata, unmanaged, requireUnmanagedAccess, admitted]
      rcases howner : cache.activeReferenceOwnerEpoch with _ | epoch
      · exact ingestMetadataForActiveOwner_effect h metadata
      · exact hquiet _
    · rw [perform, arrival, ingestMetadataOwned, admitted]
      rcases Classical.em (cache.activeReferenceOwnerEpoch = some owner) with howner | howner
      · simpa [howner] using ingestMetadataForActiveOwner_effect h metadata
      · simpa [howner] using hquiet _
  · rcases owner with _ | owner
    · rw [perform, arrival, ingestChunk, unmanaged, requireUnmanagedAccess, admitted]
      rcases howner : cache.activeReferenceOwnerEpoch with _ | epoch
      · exact ingestChunkForActiveOwner_effect h chunk
      · exact hquiet _
    · rw [perform, arrival, ingestChunkOwned, admitted]
      rcases Classical.em (cache.activeReferenceOwnerEpoch = some owner) with howner | howner
      · simpa [howner] using ingestChunkForActiveOwner_effect h chunk
      · simpa [howner] using hquiet _
  · rw [perform, lookup]
    split
    · exact hquiet _
    · obtain ⟨order, hperm, htouch⟩ := touchCommitted_perm cache hash
      rw [htouch]
      exact .refers hperm nofun
  · rw [perform, setLiveReferencesAndLookup, unmanaged, requireUnmanagedAccess]
    rcases howner : cache.activeReferenceOwnerEpoch with _ | epoch
    · obtain ⟨order, hperm, htouch⟩ := foldl_touchCommitted_perm
        { cache with liveReferences := hashes }
        (cache.committedOrder.filter fun hash => decide (hash ∈ hashes))
      rw [howner] at htouch
      dsimp only
      rw [htouch]
      exact .refers hperm nofun
    · exact hquiet _
  · rcases owner with _ | owner
    · rw [perform, setLiveReferences, unmanaged, requireUnmanagedAccess]
      rcases howner : cache.activeReferenceOwnerEpoch with _ | epoch
      · exact .refers (List.Perm.refl _) nofun
      · exact hquiet _
    · rw [perform, setLiveReferencesOwned]
      split
      · exact .refers (List.Perm.refl _) nofun
      · exact hquiet _
  · rcases owner with _ | owner
    · rw [perform, clearPartials, unmanaged, requireUnmanagedAccess]
      rcases howner : cache.activeReferenceOwnerEpoch with _ | epoch
      · exact .clears
      · exact hquiet _
    · rw [perform, clearPartialsOwned]
      split
      · exact .clears
      · exact hquiet _
  · rw [perform, activateReferenceOwner]
    split
    · split
      · exact hquiet _
      · exact .clears
    · exact .clears
  · rw [perform, releaseReferenceOwner]
    split
    · exact .clears
    · exact hquiet _
  · rw [perform, beginRenderReferenceLease]
    split
    · split
      · split
        · exact hquiet _
        · exact .refers (List.Perm.refl _) nofun
      · exact .refers (List.Perm.refl _) nofun
    · exact hquiet _
  · rw [perform, finishRenderReferenceLease]
    split
    · split
      · exact .refers (List.Perm.refl _) nofun
      · exact hquiet _
    · exact hquiet _

end Srui.Client.CacheEffects

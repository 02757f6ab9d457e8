import Srui.Basic.Runs
import Srui.Client.CacheEffects

/-!
The invariants of the client's resource cache along its runs, and where the bytes of a
committed image come from. What has arrived is recorded beside the cache.
-/

namespace Srui.Client.CacheInvariants

open Std Basic.FiniteMaps Basic.Runs Basic.Totals Basic.Shelves SemanticTree.Values
open Client.ResourceCaches Client.CacheEffects

structure Recorded where
  cache : ResourceCache
  arrivals : List Arrival

def opened (limits : ResourceLimits) : Recorded := ⟨⟨limits, ∅, [], 0, ∅, 0, ∅, none, none⟩, []⟩

def record (oracles : Oracles) (s : Recorded) (input : Input) : Recorded :=
  ⟨step oracles s.cache input, s.arrivals ++ (arrival s.cache input).toList⟩

def chunksFor (hash : ResourceHash) (arrivals : List Arrival) : List ResourceChunkInput :=
  arrivals.filterMap fun
    | .chunk input => if input.resourceHash = hash then some input else none
    | .metadata _ => none

def payload (chunks : List ResourceChunkInput) : Bytes := chunks.flatMap ResourceChunkInput.data

def Contiguous : Nat → List ResourceChunkInput → Prop
  | _, [] => True
  | offset, chunk :: rest => chunk.byteOffset = offset ∧ Contiguous (offset + chunk.data.length) rest

/-- The chunks that came for an announced resource since its announcement are contiguous
and make up `bytes`. -/
def Received (arrivals : List Arrival) (metadata : ResourceMetadataInput) (bytes : Bytes) : Prop :=
  ∃ earlier later, arrivals = earlier ++ .metadata metadata :: later ∧
    Contiguous 0 (chunksFor metadata.resourceHash later) ∧
    bytes = payload (chunksFor metadata.resourceHash later)

/-- The order lists the committed hashes once; the counts and totals of the committed
images and of the assemblies are right and within the limits. -/
structure Accounted (cache : ResourceCache) : Prop where
  order_nodup : cache.committedOrder.Nodup
  order_lists : ∀ hash, hash ∈ cache.committedOrder ↔ cache.committed.contains hash = true
  order_length : cache.committedOrder.length = cache.committed.size
  count_le : cache.committed.size ≤ cache.limits.maxCommittedEntries
  bytes_eq : cache.committedDecodedBytes =
    total (fun image => estimatedDecodedBytes image.cgImage) cache.committed
  bytes_le : cache.committedDecodedBytes ≤ cache.limits.maxCommittedDecodedBytes
  inFlight_eq : cache.inFlightBytes =
    total (fun assembly => assembly.metadata.encodedLength) cache.partials
  inFlight_le : cache.inFlightBytes ≤ cache.limits.maxInFlightBytes
  retained_le : retainedBytes cache ≤ cache.limits.maxRetainedBytes

/-- An image is what an announcement and the bytes received for it give. -/
def Delivered (oracles : Oracles) (arrivals : List Arrival) (hash : ResourceHash)
    (image : ValidatedDecodedImage) : Prop :=
  ∃ metadata bytes, metadata.resourceHash = hash ∧ Received arrivals metadata bytes ∧
    bytes.length = metadata.encodedLength ∧ oracles.sha256 bytes = hash.bytes ∧
    image.hash = hash ∧ image.mediaType = metadata.mediaType ∧
    image.encodedLength = metadata.encodedLength ∧
    oracles.decodeRasterImage bytes metadata.mediaType = .ok image.cgImage

theorem contiguous_append {offset : Nat} {chunks : List ResourceChunkInput}
    {chunk : ResourceChunkInput} :
    Contiguous offset (chunks ++ [chunk]) ↔
      Contiguous offset chunks ∧ chunk.byteOffset = offset + (payload chunks).length := by
  induction chunks generalizing offset with
  | nil => simp [Contiguous, payload]
  | cons first rest ih =>
    rw [List.cons_append, Contiguous, Contiguous, ih, and_assoc, payload, payload,
      List.flatMap_cons, List.length_append, Nat.add_assoc]

theorem payload_append (chunks : List ResourceChunkInput) (chunk : ResourceChunkInput) :
    payload (chunks ++ [chunk]) = payload chunks ++ chunk.data := by
  rw [payload, List.flatMap_append, List.flatMap_singleton, ← payload]

theorem chunksFor_append (hash : ResourceHash) (first second : List Arrival) :
    chunksFor hash (first ++ second) = chunksFor hash first ++ chunksFor hash second :=
  List.filterMap_append

variable {arrived : Option Arrival} {metadata : ResourceMetadataInput} {bytes : Bytes}

theorem Received.skip {arrivals : List Arrival}
    (h : Received arrivals metadata bytes)
    (hother : ∀ chunk, arrived = some (.chunk chunk) →
      chunk.resourceHash ≠ metadata.resourceHash) :
    Received (arrivals ++ arrived.toList) metadata bytes := by
  obtain ⟨earlier, later, hsplit, hcontiguous, hbytes⟩ := h
  have hnone : chunksFor metadata.resourceHash arrived.toList = [] := by
    rcases arrived with _ | ⟨input⟩ | ⟨input⟩
    · rfl
    · rfl
    · simp [chunksFor, hother input rfl]
  refine ⟨earlier, later ++ arrived.toList, ?_, ?_, ?_⟩
  · rw [hsplit, List.append_assoc, List.cons_append]
  · rwa [chunksFor_append, hnone, List.append_nil]
  · rwa [chunksFor_append, hnone, List.append_nil]

theorem Received.next {arrivals : List Arrival}
    (h : Received arrivals metadata bytes) {chunk : ResourceChunkInput}
    (hhash : chunk.resourceHash = metadata.resourceHash)
    (hoffset : chunk.byteOffset = bytes.length) :
    Received (arrivals ++ [.chunk chunk]) metadata (bytes ++ chunk.data) := by
  obtain ⟨earlier, later, hsplit, hcontiguous, hbytes⟩ := h
  have hone : chunksFor metadata.resourceHash [.chunk chunk] = [chunk] := by
    simp [chunksFor, hhash]
  refine ⟨earlier, later ++ [.chunk chunk], ?_, ?_, ?_⟩
  · rw [hsplit, List.append_assoc, List.cons_append]
  · rw [chunksFor_append, hone, contiguous_append]
    refine ⟨hcontiguous, ?_⟩
    rw [hoffset, hbytes, Nat.zero_add]
  · rw [chunksFor_append, hone, payload_append, hbytes]

theorem Received.start (arrivals : List Arrival) (metadata : ResourceMetadataInput) :
    Received (arrivals ++ [.metadata metadata]) metadata [] :=
  ⟨arrivals, [], rfl, trivial, rfl⟩

variable {oracles : Oracles} {cache : ResourceCache}

theorem discardPartial_partials (cache : ResourceCache) (hash : ResourceHash) :
    (discardPartial cache hash).partials = cache.partials.erase hash := by
  rw [discardPartial]
  split
  · rfl
  · rename_i hmissing
    refine ExtTreeMap.ext_getElem? fun k => ?_
    rw [getElem?_drop]
    split
    · rename_i hk
      rw [← hk, hmissing]
    · rfl

theorem discardPartial_limits (cache : ResourceCache) (hash : ResourceHash) :
    (discardPartial cache hash).limits = cache.limits := by
  rw [discardPartial]
  split <;> rfl

variable {hash : ResourceHash}

theorem partials_of_discardPartial {other : ResourceHash} {assembly : PartialAssembly}
    (h : (discardPartial cache hash).partials[other]? = some assembly) :
    other ≠ hash ∧ cache.partials[other]? = some assembly := by
  rw [discardPartial_partials, getElem?_drop] at h
  split at h
  · exact absurd h nofun
  · rename_i hne
    exact ⟨Ne.symm hne, h⟩

theorem size_erase_le (partials : ExtTreeMap ResourceHash PartialAssembly) (hash : ResourceHash) :
    (partials.erase hash).size ≤ partials.size := by
  rw [← card_keySet, ← card_keySet, keySet_erase]
  exact Finset.card_erase_le

theorem discard_sound (h : Sound cache) (hash : ResourceHash) :
    Sound (discardPartial cache hash) := by
  have hshelf := discardPartial_committedShelf cache hash
  have hcommitted : (discardPartial cache hash).committed = cache.committed :=
    congrArg Shelf.entries hshelf
  have hinFlight : (discardPartial cache hash).inFlightBytes =
      total PartialAssembly.encodedLength (cache.partials.erase hash) := by
    have hothers : ∀ other, other ≠ hash →
        (cache.partials.erase hash)[other]? = cache.partials[other]? := fun other hne => by
      rw [getElem?_drop, if_neg (Ne.symm hne)]
    have hchange := total_change PartialAssembly.encodedLength hash hothers
    rw [getElem?_drop, if_pos rfl, weight_none, ← h.inFlight_eq] at hchange
    rw [discardPartial]
    split
    · rename_i removed hremoved
      have hfits := (h.assembling hash removed hremoved).2.fits
      rw [hremoved, weight_some] at hchange
      show cache.inFlightBytes - min removed.encodedLength intMax = _
      rw [Nat.min_eq_left hfits]
      omega
    · rename_i hmissing
      rw [hmissing, weight_none] at hchange
      omega
  have hle : (discardPartial cache hash).inFlightBytes ≤ cache.inFlightBytes := by
    rw [discardPartial]
    split
    · exact Nat.sub_le _ _
    · exact Nat.le_refl _
  refine ⟨hshelf ▸ h.tallied, ?_, ?_, ?_, ?_, ?_, ?_, ?_⟩
  · rw [hcommitted, discardPartial_limits]
    exact h.count_le
  · rw [discardPartial_limits]
    exact (congrArg Shelf.total hshelf).le.trans h.bytes_le
  · rw [discardPartial_partials]
    exact hinFlight
  · rw [discardPartial_limits]
    exact hle.trans h.inFlight_le
  · rw [discardPartial_limits, discardPartial_partials]
    exact (size_erase_le cache.partials hash).trans h.assemblies_le
  · intro other assembly hassembly
    rw [hcommitted, discardPartial_limits]
    exact h.assembling other assembly (partials_of_discardPartial hassembly).2
  · intro other image himage
    rw [discardPartial_limits]
    exact h.mediaType_le other image (hcommitted ▸ himage)

variable {image : ValidatedDecodedImage} {cache' : ResourceCache} {evicted : List ResourceHash}

theorem insert_sound (h : Sound cache) (hins : Inserts cache image evicted cache')
    (habsent : cache.partials[image.hash]? = none)
    (hmediaType : image.mediaType.utf8ByteSize ≤ cache.limits.maxMediaTypeBytes) :
    Sound cache' := by
  obtain ⟨hfresh, -, hcache, hcount, hbytes⟩ := hins
  subst hcache
  have hmissing : ((committedShelf cache).removeAll imageSize evicted).entries[image.hash]? =
      none := by
    refine Option.eq_none_iff_forall_ne_some.mpr fun entry hentry => ?_
    have hbefore : cache.committed[image.hash]? = some entry := lookup_of_removeAll hentry
    rw [hfresh] at hbefore
    exact absurd hbefore nofun
  have hlookup : ∀ (hash : ResourceHash) (entry : ValidatedDecodedImage),
      (((committedShelf cache).removeAll imageSize evicted).entries.insert image.hash
        image)[hash]? = some entry →
      (image.hash = hash ∧ image = entry) ∨ cache.committed[hash]? = some entry := by
    intro hash entry hentry
    rw [getElem?_put] at hentry
    split at hentry
    · rename_i heq
      exact .inl ⟨heq, Option.some.inj hentry⟩
    · exact .inr (lookup_of_removeAll hentry)
  refine ⟨(h.tallied.removeAll evicted).push hmissing image, hcount, hbytes, h.inFlight_eq,
    h.inFlight_le, h.assemblies_le, ?_, ?_⟩
  · intro hash assembly hassembly
    obtain ⟨hnone, hassembling⟩ := h.assembling hash assembly hassembly
    refine ⟨Option.eq_none_iff_forall_ne_some.mpr fun entry hentry => ?_, hassembling⟩
    rcases hlookup hash entry hentry with ⟨heq, -⟩ | hbefore
    · have hassembly' : cache.partials[image.hash]? = some assembly := heq ▸ hassembly
      rw [habsent] at hassembly'
      exact absurd hassembly' nofun
    · rw [hnone] at hbefore
      exact absurd hbefore nofun
  · intro hash entry hentry
    rcases hlookup hash entry hentry with ⟨-, heq⟩ | hbefore
    · exact heq ▸ hmediaType
    · exact h.mediaType_le hash entry hbefore

theorem announce_sound (h : Sound cache) {input : ResourceMetadataInput}
    (hcommitted : cache.committed[input.resourceHash]? = none)
    (habsent : cache.partials[input.resourceHash]? = none)
    (hlength : 0 < input.encodedLength ∧ input.encodedLength ≤ intMax)
    (hmediaType : input.mediaType.utf8ByteSize ≤ cache.limits.maxMediaTypeBytes)
    (hroom : cache.partials.size < cache.limits.maxConcurrentAssemblies)
    (hinFlight : cache.inFlightBytes + input.encodedLength ≤ cache.limits.maxInFlightBytes) :
    Sound { cache with
      partials := cache.partials.insert input.resourceHash (.init input)
      inFlightBytes := cache.inFlightBytes + input.encodedLength } := by
  refine ⟨h.tallied, h.count_le, h.bytes_le, ?_, hinFlight, ?_, ?_, h.mediaType_le⟩
  · have hothers : ∀ other, other ≠ input.resourceHash →
        (cache.partials.insert input.resourceHash (.init input))[other]? =
          cache.partials[other]? := fun other hne => by
      rw [getElem?_put, if_neg (Ne.symm hne)]
    have hchange := total_change PartialAssembly.encodedLength input.resourceHash hothers
    rw [getElem?_put, if_pos rfl, habsent, weight_none, weight_some, ← h.inFlight_eq] at hchange
    exact hchange.symm
  · show (ExtTreeMap.insert _ _ _).size ≤ _
    rw [size_insert_of_fresh _ habsent]
    exact hroom
  · intro hash assembly hassembly
    dsimp only at hassembly
    rw [getElem?_put] at hassembly
    split at hassembly
    · rename_i heq
      rw [← Option.some.inj hassembly, ← heq]
      exact ⟨hcommitted, rfl, rfl, hlength.1, hlength.2, hmediaType⟩
    · exact h.assembling hash assembly hassembly

theorem append_sound (h : Sound cache) {assembly : PartialAssembly}
    (habsent : cache.partials[hash]? = some assembly) {data : Bytes}
    (hmore : assembly.nextOffset + data.length < assembly.encodedLength) :
    Sound { cache with
      partials := cache.partials.insert hash
        { assembly with
          buffer := assembly.buffer ++ data
          nextOffset := assembly.nextOffset + data.length } } := by
  obtain ⟨hnone, hassembling⟩ := h.assembling hash assembly habsent
  refine ⟨h.tallied, h.count_le, h.bytes_le, ?_, h.inFlight_le, ?_, ?_, h.mediaType_le⟩
  · have hothers : ∀ other, other ≠ hash →
        (cache.partials.insert hash { assembly with
          buffer := assembly.buffer ++ data
          nextOffset := assembly.nextOffset + data.length })[other]? =
          cache.partials[other]? := fun other hne => by
      rw [getElem?_put, if_neg (Ne.symm hne)]
    have hchange := total_change PartialAssembly.encodedLength hash hothers
    rw [getElem?_put, if_pos rfl, habsent, weight_some, weight_some, ← h.inFlight_eq] at hchange
    exact (Nat.add_right_cancel hchange).symm
  · show (ExtTreeMap.insert _ _ _).size ≤ _
    rw [size_insert_of_present _ habsent]
    exact h.assemblies_le
  · intro other found hfound
    dsimp only at hfound
    rw [getElem?_put] at hfound
    split at hfound
    · rename_i heq
      rw [← Option.some.inj hfound, ← heq]
      have hoffset := hassembling.offset_eq
      refine ⟨hnone, hassembling.hash_eq, ?_, ?_, hassembling.fits, hassembling.mediaType_le⟩
      · rw [List.length_append, hoffset]
      · rw [List.length_append, ← hoffset]
        exact hmore
    · exact h.assembling other found hfound

theorem finalize_sound (h : Sound cache)
    (hfinalized : Finalized oracles cache metadata bytes cache')
    (habsent : cache.partials[metadata.resourceHash]? = none)
    (hmediaType : metadata.mediaType.utf8ByteSize ≤ cache.limits.maxMediaTypeBytes) :
    Sound cache' := by
  obtain ⟨cgImage, evicted, -, hins⟩ := hfinalized.inserted
  exact insert_sound h hins habsent hmediaType

variable {attempt : Attempt (Option ResourceCommit)}

theorem effect_sound (h : Sound cache) (heffect : Effect oracles cache arrived attempt) :
    Sound attempt.1 := by
  rcases heffect with ⟨hperm, -⟩ | _ | _ |
    ⟨hcommitted, habsent, hlength, hmediaType, hroom, hinFlight⟩ |
    ⟨habsent, hoffset, hmore⟩ | ⟨habsent, hmediaType, hfinalized⟩ |
    ⟨habsent, hoffset, hfinalized⟩
  · exact ⟨h.tallied.reorder hperm, h.count_le, h.bytes_le, h.inFlight_eq, h.inFlight_le,
      h.assemblies_le, h.assembling, h.mediaType_le⟩
  · refine ⟨h.tallied, h.count_le, h.bytes_le, ?_, Nat.zero_le _, Nat.zero_le _, ?_,
      h.mediaType_le⟩
    · rw [total_eq_sum_of_subset _ (s := ∅)]
      · rfl
      · intro hash hmem
        rw [mem_keySet] at hmem
        simp at hmem
    · intro hash assembly hassembly
      exact absurd hassembly (by simp)
  · exact discard_sound h _
  · exact announce_sound h hcommitted habsent hlength hmediaType hroom hinFlight
  · exact append_sound h habsent hmore
  · exact finalize_sound h hfinalized habsent hmediaType
  · rename_i input assembly cache' commit
    obtain ⟨-, hassembling⟩ := h.assembling _ assembly habsent
    refine finalize_sound (discard_sound h input.resourceHash) hfinalized ?_ ?_
    · rw [hassembling.hash_eq, discardPartial_partials, getElem?_drop, if_pos rfl]
    · rw [discardPartial_limits]
      exact hassembling.mediaType_le

def Filled (s : Recorded) : Prop :=
  ∀ (hash : ResourceHash) (assembly : PartialAssembly),
    s.cache.partials[hash]? = some assembly →
      Received s.arrivals assembly.metadata assembly.buffer

theorem insert_partials (hins : Inserts cache image evicted cache') :
    cache'.partials = cache.partials := by
  rw [hins.cache_eq]
  rfl

theorem filled_effect {s : Recorded} (hsound : Sound s.cache) (h : Filled s)
    (heffect : Effect oracles s.cache arrived attempt) :
    Filled ⟨attempt.1, s.arrivals ++ arrived.toList⟩ := by
  have hother : ∀ {hash : ResourceHash} {assembly : PartialAssembly},
      s.cache.partials[hash]? = some assembly →
      (∀ chunk, arrived = some (.chunk chunk) → chunk.resourceHash ≠ hash) →
      Received (s.arrivals ++ arrived.toList) assembly.metadata assembly.buffer := by
    intro hash assembly hassembly hne
    refine (h hash assembly hassembly).skip ?_
    rw [(hsound.assembling hash assembly hassembly).2.hash_eq]
    exact hne
  intro hash assembly hassembly
  rcases heffect with ⟨hperm, hignored⟩ | _ | ⟨hchunk⟩ |
    ⟨hcommitted, habsent, hlength, hmediaType, hroom, hinFlight⟩ |
    ⟨habsent, hoffset, hmore⟩ | ⟨habsent, hmediaType, hfinalized⟩ |
    ⟨habsent, hoffset, hfinalized⟩
  · refine hother hassembly fun chunk harrived heq => ?_
    have hnone := hignored chunk harrived
    rw [heq, hassembly] at hnone
    exact absurd hnone nofun
  · exact absurd hassembly (by simp)
  · obtain ⟨hne, hbefore⟩ := partials_of_discardPartial hassembly
    exact hother hbefore fun chunk harrived heq => hne (heq ▸ hchunk chunk harrived)
  · dsimp only at hassembly
    rw [getElem?_put] at hassembly
    split at hassembly
    · rw [← Option.some.inj hassembly]
      exact Received.start _ _
    · exact hother hassembly nofun
  · rename_i input extended
    obtain ⟨-, hassembling⟩ := hsound.assembling _ extended habsent
    dsimp only at hassembly
    rw [getElem?_put] at hassembly
    split at hassembly
    · rw [← Option.some.inj hassembly]
      refine (h _ extended habsent).next hassembling.hash_eq.symm ?_
      rw [hoffset, hassembling.offset_eq]
    · rename_i hne
      refine hother hassembly ?_
      rintro chunk ⟨⟩
      exact hne
  · obtain ⟨cgImage, evicted, -, hins⟩ := hfinalized.inserted
    rw [insert_partials hins] at hassembly
    exact hother hassembly nofun
  · obtain ⟨cgImage, evicted, -, hins⟩ := hfinalized.inserted
    rw [insert_partials hins] at hassembly
    obtain ⟨hne, hbefore⟩ := partials_of_discardPartial hassembly
    refine hother hbefore ?_
    rintro chunk ⟨⟩
    exact Ne.symm hne

theorem effect_committed {s : Recorded} (hsound : Sound s.cache) (h : Filled s)
    (heffect : Effect oracles s.cache arrived attempt) :
    attempt.1.committed = s.cache.committed ∨
    (∃ commit, attempt.2 = .ok commit) ∧
      ∃ base metadata bytes, base.committed = s.cache.committed ∧
        (∀ hash, isLiveReference base hash = isLiveReference s.cache hash) ∧
        Finalized oracles base metadata bytes attempt.1 ∧
        Received (s.arrivals ++ arrived.toList) metadata bytes := by
  rcases heffect with _ | _ | _ | _ | _ | ⟨habsent, hmediaType, hfinalized⟩ |
    ⟨habsent, hoffset, hfinalized⟩
  · exact .inl rfl
  · exact .inl rfl
  · exact .inl (congrArg Shelf.entries (discardPartial_committedShelf s.cache _))
  · exact .inl rfl
  · exact .inl rfl
  · exact .inr ⟨⟨_, rfl⟩, s.cache, _, _, rfl, fun _ => rfl, hfinalized, Received.start _ _⟩
  · rename_i input assembly cache' commit
    obtain ⟨-, hassembling⟩ := hsound.assembling _ assembly habsent
    refine .inr ⟨⟨_, rfl⟩, discardPartial s.cache input.resourceHash, _, _, ?_, ?_, hfinalized, ?_⟩
    · exact congrArg Shelf.entries (discardPartial_committedShelf s.cache input.resourceHash)
    · intro hash
      rw [discardPartial]
      split <;> rfl
    · refine (h _ assembly habsent).next hassembling.hash_eq.symm ?_
      rw [hoffset, hassembling.offset_eq]

theorem insert_keeps {entry : ValidatedDecodedImage} (hins : Inserts cache image evicted cache')
    (hentry : cache.committed[hash]? = some entry) (hlive : isLiveReference cache hash = true) :
    cache'.committed[hash]? = some entry := by
  have hkept : hash ∉ evicted := by
    intro hmem
    rw [hins.unreferenced hash hmem] at hlive
    exact absurd hlive nofun
  have hne : image.hash ≠ hash := by
    intro heq
    have hfresh := hins.fresh
    rw [heq, hentry] at hfresh
    exact absurd hfresh nofun
  rw [hins.cache_eq]
  show (((committedShelf cache).removeAll imageSize evicted).entries.insert image.hash
    image)[hash]? = some entry
  rw [getElem?_put, if_neg hne, lookup_removeAll hkept]
  exact hentry

theorem insert_visible {entry : ValidatedDecodedImage} (hins : Inserts cache image evicted cache')
    (hbefore : cache.committed[hash]? = none) (hafter : cache'.committed[hash]? = some entry) :
    image.hash = hash ∧ image = entry := by
  rw [hins.cache_eq] at hafter
  have hlookup : (((committedShelf cache).removeAll imageSize evicted).entries.insert image.hash
    image)[hash]? = some entry := hafter
  rw [getElem?_put] at hlookup
  split at hlookup
  · rename_i heq
    exact ⟨heq, Option.some.inj hlookup⟩
  · have hold : cache.committed[hash]? = some entry := lookup_of_removeAll hlookup
    rw [hbefore] at hold
    exact absurd hold nofun

theorem opened_sound (limits : ResourceLimits) : Sound (opened limits).cache where
  tallied := Tallied.empty
  count_le := Nat.zero_le _
  bytes_le := Nat.zero_le _
  inFlight_eq := (Tallied.empty (f := PartialAssembly.encodedLength)).total_eq
  inFlight_le := Nat.zero_le _
  assemblies_le := Nat.zero_le _
  assembling := fun hash assembly hassembly => absurd hassembly (by simp [opened])
  mediaType_le := fun hash image himage => absurd himage (by simp [opened])

theorem run_sound (oracles : Oracles) (limits : ResourceLimits) (inputs : List Input) :
    Sound (run (record oracles) (opened limits) inputs).cache ∧
      Filled (run (record oracles) (opened limits) inputs) := by
  refine run_invariant (P := fun s => Sound s.cache ∧ Filled s) ?_ ⟨opened_sound limits, ?_⟩ inputs
  · rintro s input ⟨hsound, hfilled⟩
    have heffect := perform_effect oracles hsound input
    exact ⟨effect_sound hsound heffect, filled_effect hsound hfilled heffect⟩
  · intro hash assembly hassembly
    exact absurd hassembly (by simp [opened])

theorem sum_toList_le {β : Type} {t : ExtTreeMap ResourceHash β} {f : β → Nat} {bound : Nat}
    (h : ∀ (hash : ResourceHash) (v : β), t[hash]? = some v → f v ≤ bound) :
    (t.toList.map fun entry => f entry.2).sum ≤ t.size * bound := by
  have hle : ∀ n ∈ t.toList.map fun entry => f entry.2, n ≤ bound := by
    intro n hn
    obtain ⟨entry, hentry, rfl⟩ := List.mem_map.mp hn
    exact h entry.1 entry.2 (mem_toList.mp hentry)
  have hsum := List.sum_le_card_nsmul _ _ hle
  rwa [List.length_map, ExtTreeMap.length_toList, smul_eq_mul] at hsum

theorem retainedBytes_le
    (h : Sound cache) : retainedBytes cache ≤ cache.limits.maxRetainedBytes := by
  have hcommitted : (cache.committed.toList.map fun entry => entry.2.mediaType.utf8ByteSize).sum ≤
      cache.limits.maxCommittedEntries * cache.limits.maxMediaTypeBytes :=
    (sum_toList_le h.mediaType_le).trans (Nat.mul_le_mul_right _ h.count_le)
  have habsents : (cache.partials.toList.map fun entry =>
      entry.2.metadata.mediaType.utf8ByteSize).sum ≤
      cache.limits.maxConcurrentAssemblies * cache.limits.maxMediaTypeBytes :=
    (sum_toList_le fun hash assembly hassembly =>
      (h.assembling hash assembly hassembly).2.mediaType_le).trans
      (Nat.mul_le_mul_right _ h.assemblies_le)
  have hbuffers : (cache.partials.toList.map fun entry => entry.2.buffer.length).sum ≤
      cache.limits.maxInFlightBytes := by
    refine Nat.le_trans ?_ (h.inFlight_eq ▸ h.inFlight_le)
    refine List.sum_le_sum fun entry hentry => ?_
    exact (h.assembling entry.1 entry.2 (mem_toList.mp hentry)).2.unfinished.le
  rw [retainedBytes, ResourceLimits.maxRetainedBytes, List.sum_map_add, Nat.add_mul]
  have hbytes := h.bytes_le
  omega

theorem sound_accounted (h : Sound cache) : Accounted cache where
  order_nodup := h.tallied.listing.nodup
  order_lists := by
    intro hash
    rw [ExtTreeMap.contains_eq_isSome_getElem?, Option.isSome_iff_exists]
    exact h.tallied.listing.mem_iff hash
  order_length := h.tallied.listing.length_eq_size
  count_le := h.count_le
  bytes_eq := h.tallied.total_eq
  bytes_le := h.bytes_le
  inFlight_eq := h.inFlight_eq
  inFlight_le := h.inFlight_le
  retained_le := retainedBytes_le h

/-- After any operations the cache is accounted for, and whatever comes next, no live or
leased image is evicted, a call that throws changes no committed image, and an image
becomes visible only as the bytes that have come for its hash. -/
theorem reachable_accounted (oracles : Oracles) (limits : ResourceLimits) (inputs : List Input)
    (input : Input) :
    Accounted (run (record oracles) (opened limits) inputs).cache ∧
    (∀ hash image,
      (run (record oracles) (opened limits) inputs).cache.committed[hash]? = some image →
      isLiveReference (run (record oracles) (opened limits) inputs).cache hash = true →
      (run (record oracles) (opened limits) (inputs ++ [input])).cache.committed[hash]? =
        some image) ∧
    (∀ fault, (perform oracles (run (record oracles) (opened limits) inputs).cache input).2 =
        .error fault →
      (run (record oracles) (opened limits) (inputs ++ [input])).cache.committed =
        (run (record oracles) (opened limits) inputs).cache.committed) ∧
    ∀ hash image,
      (run (record oracles) (opened limits) inputs).cache.committed[hash]? = none →
      (run (record oracles) (opened limits) (inputs ++ [input])).cache.committed[hash]? =
        some image →
      Delivered oracles (run (record oracles) (opened limits) (inputs ++ [input])).arrivals hash
        image := by
  obtain ⟨hsound, hfilled⟩ := run_sound oracles limits inputs
  rw [run_append, run_cons, run_nil]
  generalize run (record oracles) (opened limits) inputs = s at hsound hfilled ⊢
  have heffect := perform_effect oracles hsound input
  refine ⟨sound_accounted hsound, ?_, ?_, ?_⟩
  · intro hash image himage hlive
    rcases effect_committed hsound hfilled heffect with hsame |
      ⟨-, base, metadata, bytes, hbase, hrefs, hfinalized, -⟩
    · exact (congrArg (fun committed => committed[hash]?) hsame).trans himage
    · obtain ⟨cgImage, evicted, -, hins⟩ := hfinalized.inserted
      exact insert_keeps hins (hbase ▸ himage) ((hrefs hash).trans hlive)
  · intro fault hfault
    rcases effect_committed hsound hfilled heffect with hsame | ⟨⟨commit, hok⟩, -⟩
    · exact hsame
    · rw [hfault] at hok
      exact absurd hok nofun
  · intro hash image hbefore hafter
    rcases effect_committed hsound hfilled heffect with hsame |
      ⟨-, base, metadata, bytes, hbase, -, hfinalized, hreceived⟩
    · have hstill : s.cache.committed[hash]? = some image := hsame ▸ hafter
      rw [hbefore] at hstill
      exact absurd hstill nofun
    · obtain ⟨cgImage, evicted, hdecode, hins⟩ := hfinalized.inserted
      obtain ⟨hhash, rfl⟩ := insert_visible hins (hbase ▸ hbefore) hafter
      refine ⟨metadata, bytes, hhash, hreceived, hfinalized.length_eq, ?_, hhash, rfl, rfl,
        hdecode⟩
      rw [hfinalized.digest_eq]
      exact congrArg ResourceHash.bytes hhash

end Srui.Client.CacheInvariants

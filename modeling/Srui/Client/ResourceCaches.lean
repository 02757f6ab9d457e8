import Srui.Basic.Shelves
import Srui.SemanticTree.Values

/-!
The client's content-addressed resource cache: committed images, partial assemblies,
and the references that keep an image from being evicted.

The digest and the image decoder are parameters. Sizes are naturals; a conversion or
a sum that does not fit a Swift `Int` traps. An `async` call is taken apart at its
suspensions: `activateReferenceOwner` and `releaseReferenceOwner` are the sections of
the two owner calls that change the cache, and they may run at any time. Media types are
compared scalar by scalar, where a Swift `String` compares up to canonical equivalence.
-/

namespace Srui.Client.ResourceCaches

open Std Basic.Machine SemanticTree.Values

abbrev Bytes := List UInt8

/-- `Int.max`. -/
def intMax : Nat := 9223372036854775807

structure ResourceLimits where
  maxEncodedBytes : Nat := 50 * 1024 * 1024
  maxAxisPixels : Nat := 16384
  maxTotalPixels : Nat := 100000000
  maxChunkBytes : Nat := 32 * 1024
  maxConcurrentAssemblies : Nat := 16
  maxInFlightBytes : Nat := 64 * 1024 * 1024
  maxCommittedEntries : Nat := 64
  maxCommittedDecodedBytes : Nat := 256 * 1024 * 1024
  maxMediaTypeBytes : Nat := 255
deriving DecidableEq, Repr

def ResourceLimits.maxRetainedBytes (limits : ResourceLimits) : Nat :=
  limits.maxCommittedDecodedBytes + limits.maxInFlightBytes +
    (limits.maxCommittedEntries + limits.maxConcurrentAssemblies) * limits.maxMediaTypeBytes

inductive ResourceTransferPriority where
  | unspecified
  | normal
  | low
deriving DecidableEq, Repr

structure ResourceMetadataInput where
  resourceHash : ResourceHash
  mediaType : String
  encodedLength : Nat
  decodedWidth : Nat := 0
  decodedHeight : Nat := 0
  priority : ResourceTransferPriority := .normal
deriving DecidableEq

structure ResourceChunkInput where
  resourceHash : ResourceHash
  byteOffset : Nat
  data : Bytes
deriving DecidableEq

inductive ResourceCacheError where
  | invalidHash (length : Nat)
  | unknownResource (hash : ResourceHash)
  | nonContiguousOffset (expected actual : Nat)
  | oversizedChunk (length limit : Nat)
  | oversizedEncoded (length limit : Nat)
  | oversizedMediaType (length limit : Nat)
  | lengthMismatch (expected actual : Nat)
  | hashMismatch (expected actual : ResourceHash)
  | invalidImage (reason : String)
  | dimensionLimit (width height : Nat) (reason : String)
  | assemblyLimit (concurrent limit : Nat)
  | inFlightBytesLimit (requested limit : Nat)
  | committedBytesLimit (requested limit : Nat)
  | committedEntryLimit (count limit : Nat)
  | metadataConflict (hash : ResourceHash)
  | managedReferenceOwnerActive (epoch : Nat)
deriving DecidableEq

structure CGImage where
  width : Nat
  height : Nat
  bytesPerRow : Nat
deriving DecidableEq, Repr

structure ValidatedDecodedImage where
  hash : ResourceHash
  mediaType : String
  encodedLength : Nat
  cgImage : CGImage
deriving DecidableEq

structure ResourceCommit where
  image : ValidatedDecodedImage
  newlyCommitted : Bool
  evictedHashes : List ResourceHash := []
deriving DecidableEq

structure PartialAssembly where
  metadata : ResourceMetadataInput
  buffer : Bytes
  nextOffset : Nat
deriving DecidableEq

def PartialAssembly.encodedLength (assembly : PartialAssembly) : Nat :=
  assembly.metadata.encodedLength

def PartialAssembly.init (metadata : ResourceMetadataInput) : PartialAssembly :=
  ⟨metadata, [], 0⟩

structure RenderReferenceLease where
  ownerEpoch : Nat
  renderToken : Nat
  hashes : Finset ResourceHash
deriving DecidableEq

structure ResourceCache where
  limits : ResourceLimits
  committed : ExtTreeMap ResourceHash ValidatedDecodedImage := ∅
  committedOrder : List ResourceHash := []
  committedDecodedBytes : Nat := 0
  partials : ExtTreeMap ResourceHash PartialAssembly := ∅
  inFlightBytes : Nat := 0
  liveReferences : Finset ResourceHash := ∅
  activeReferenceOwnerEpoch : Option Nat := none
  renderReferenceLease : Option RenderReferenceLease := none

structure Oracles where
  sha256 : Bytes → Bytes
  decodeRasterImage : Bytes → String → Except ResourceCacheError CGImage

abbrev Attempt (α : Type) := ResourceCache × Outcome ResourceCacheError α

/-- A sum of two `Int`s, none where it traps. -/
def addInt (a b : Nat) : Option Nat := if a + b ≤ intMax then some (a + b) else none

def estimatedDecodedBytes (image : CGImage) : Nat :=
  if image.bytesPerRow * image.height ≤ intMax then image.bytesPerRow * image.height else intMax

def touchCommitted (cache : ResourceCache) (hash : ResourceHash) : ResourceCache :=
  if hash ∈ cache.committedOrder then
    { cache with committedOrder := cache.committedOrder.erase hash ++ [hash] }
  else cache

def removeCommitted (cache : ResourceCache) (hash : ResourceHash) : ResourceCache :=
  match cache.committed[hash]? with
  | some removed =>
    { cache with
      committedOrder := cache.committedOrder.erase hash
      committed := cache.committed.erase hash
      committedDecodedBytes :=
        cache.committedDecodedBytes - estimatedDecodedBytes removed.cgImage }
  | none => { cache with committedOrder := cache.committedOrder.erase hash }

def isLiveReference (cache : ResourceCache) (hash : ResourceHash) : Bool :=
  decide (hash ∈ cache.liveReferences) ||
    match cache.renderReferenceLease with
    | some lease => decide (hash ∈ lease.hashes)
    | none => false

structure EvictionPlan where
  evicted : List ResourceHash
  projectedCount : Nat
  projectedBytes : Nat

def planEvictions (cache : ResourceCache) (decodedBytes : Nat) :
    EvictionPlan → List ResourceHash → EvictionPlan
  | plan, [] => plan
  | plan, candidate :: rest =>
    if plan.projectedCount < cache.limits.maxCommittedEntries ∧
        plan.projectedBytes + decodedBytes ≤ intMax ∧
        plan.projectedBytes + decodedBytes ≤ cache.limits.maxCommittedDecodedBytes then plan
    else
      match cache.committed[candidate]? with
      | none => planEvictions cache decodedBytes plan rest
      | some existing =>
        planEvictions cache decodedBytes
          ⟨plan.evicted ++ [candidate], plan.projectedCount - 1,
            plan.projectedBytes - estimatedDecodedBytes existing.cgImage⟩ rest

def insertCommitted (cache : ResourceCache) (image : ValidatedDecodedImage) :
    Attempt (List ResourceHash) :=
  if cache.committed.contains image.hash then (touchCommitted cache image.hash, .ok [])
  else
    let decodedBytes := estimatedDecodedBytes image.cgImage
    if cache.limits.maxCommittedDecodedBytes < decodedBytes then
      (cache, err (.committedBytesLimit decodedBytes cache.limits.maxCommittedDecodedBytes))
    else
      let plan := planEvictions cache decodedBytes
        ⟨[], cache.committed.size, cache.committedDecodedBytes⟩
        (cache.committedOrder.filter fun candidate => !isLiveReference cache candidate)
      if cache.limits.maxCommittedEntries ≤ plan.projectedCount then
        (cache, err (.committedEntryLimit (plan.projectedCount + 1)
          cache.limits.maxCommittedEntries))
      else if intMax < plan.projectedBytes + decodedBytes then
        (cache, err (.committedBytesLimit intMax cache.limits.maxCommittedDecodedBytes))
      else if cache.limits.maxCommittedDecodedBytes < plan.projectedBytes + decodedBytes then
        (cache, err (.committedBytesLimit (plan.projectedBytes + decodedBytes)
          cache.limits.maxCommittedDecodedBytes))
      else
        let kept := plan.evicted.foldl removeCommitted cache
        ({ kept with
            committed := kept.committed.insert image.hash image
            committedOrder := kept.committedOrder ++ [image.hash]
            committedDecodedBytes := plan.projectedBytes + decodedBytes },
          .ok plan.evicted)

def discardAllPartials (cache : ResourceCache) : ResourceCache :=
  { cache with partials := ∅, inFlightBytes := 0 }

/-- The reservation is released clamped to an `Int` and to zero. -/
def discardPartial (cache : ResourceCache) (hash : ResourceHash) : ResourceCache :=
  match cache.partials[hash]? with
  | some removed =>
    { cache with
      partials := cache.partials.erase hash
      inFlightBytes := cache.inFlightBytes - min removed.encodedLength intMax }
  | none => cache

def validateMetadataBudget (limits : ResourceLimits) (input : ResourceMetadataInput) :
    Except ResourceCacheError Unit :=
  if limits.maxEncodedBytes < input.encodedLength then
    .error (.oversizedEncoded input.encodedLength limits.maxEncodedBytes)
  else if limits.maxMediaTypeBytes < input.mediaType.utf8ByteSize then
    .error (.oversizedMediaType input.mediaType.utf8ByteSize limits.maxMediaTypeBytes)
  else .ok ()

def enforceDimensionLimits (limits : ResourceLimits) (width height : Nat) (stage : String) :
    Except ResourceCacheError Unit :=
  if width = 0 ∨ height = 0 then
    .error (.dimensionLimit width height ("non-positive dimensions at " ++ stage))
  else if limits.maxAxisPixels < width ∨ limits.maxAxisPixels < height then
    .error (.dimensionLimit width height
      ("axis exceeds " ++ toString limits.maxAxisPixels ++ " at " ++ stage))
  else if intMax < width * height ∨ limits.maxTotalPixels < width * height then
    .error (.dimensionLimit width height
      ("total pixels exceed " ++ toString limits.maxTotalPixels ++ " at " ++ stage))
  else .ok ()

def validateOptionalDimensionHints (limits : ResourceLimits) (input : ResourceMetadataInput) :
    Except ResourceCacheError Unit :=
  if limits.maxAxisPixels < input.decodedWidth ∨ limits.maxAxisPixels < input.decodedHeight then
    .error (.dimensionLimit input.decodedWidth input.decodedHeight
      ("metadata axis hint exceeds " ++ toString limits.maxAxisPixels))
  else if 0 < input.decodedWidth ∧ 0 < input.decodedHeight then
    enforceDimensionLimits limits input.decodedWidth input.decodedHeight "metadata hint"
  else .ok ()

variable (oracles : Oracles)

def finalizeAssembly (cache : ResourceCache) (hash : ResourceHash)
    (metadata : ResourceMetadataInput) (bytes : Bytes) : Attempt ResourceCommit :=
  if bytes.length ≠ metadata.encodedLength then
    (cache, err (.lengthMismatch metadata.encodedLength bytes.length))
  else if hdigest : (oracles.sha256 bytes).length = 32 then
    let actualHash : ResourceHash := ⟨oracles.sha256 bytes, hdigest⟩
    if actualHash ≠ hash then (cache, err (.hashMismatch hash actualHash))
    else
      match oracles.decodeRasterImage bytes metadata.mediaType with
      | .error e => (cache, err e)
      | .ok cgImage =>
        let validated : ValidatedDecodedImage :=
          ⟨hash, metadata.mediaType, metadata.encodedLength, cgImage⟩
        match insertCommitted cache validated with
        | (cache, .error fault) => (cache, .error fault)
        | (cache, .ok evicted) => (cache, .ok ⟨validated, true, evicted⟩)
  else (cache, err (.invalidHash (oracles.sha256 bytes).length))

def ingestMetadataForActiveOwner (cache : ResourceCache) (input : ResourceMetadataInput) :
    Attempt (Option ResourceCommit) :=
  match cache.committed[input.resourceHash]? with
  | some existing =>
    (touchCommitted cache input.resourceHash, .ok (some ⟨existing, false, []⟩))
  | none =>
  match cache.partials[input.resourceHash]? with
  | some existing =>
    if existing.metadata ≠ input then
      (discardPartial cache input.resourceHash, err (.metadataConflict input.resourceHash))
    else (cache, .ok none)
  | none =>
  match validateMetadataBudget cache.limits input with
  | .error e => (cache, err e)
  | .ok () =>
  if input.encodedLength = 0 then
    match finalizeAssembly oracles cache input.resourceHash input [] with
    | (cache, .error fault) => (cache, .error fault)
    | (cache, .ok commit) => (cache, .ok (some commit))
  else if cache.limits.maxConcurrentAssemblies ≤ cache.partials.size then
    (cache, err (.assemblyLimit (cache.partials.size + 1) cache.limits.maxConcurrentAssemblies))
  else if intMax < input.encodedLength then (cache, .error .panicked)
  else
    match addInt cache.inFlightBytes input.encodedLength with
    | none => (cache, .error .panicked)
    | some nextInFlight =>
      if cache.limits.maxInFlightBytes < nextInFlight then
        (cache, err (.inFlightBytesLimit nextInFlight cache.limits.maxInFlightBytes))
      else
        match validateOptionalDimensionHints cache.limits input with
        | .error e => (cache, err e)
        | .ok () =>
          ({ cache with
              partials := cache.partials.insert input.resourceHash (.init input)
              inFlightBytes := nextInFlight },
            .ok none)

def ingestChunkForActiveOwner (cache : ResourceCache) (input : ResourceChunkInput) :
    Attempt (Option ResourceCommit) :=
  match cache.committed[input.resourceHash]? with
  | some existing =>
    (touchCommitted cache input.resourceHash, .ok (some ⟨existing, false, []⟩))
  | none =>
  match cache.partials[input.resourceHash]? with
  | none => (cache, err (.unknownResource input.resourceHash))
  | some assembly =>
    if cache.limits.maxChunkBytes < input.data.length then
      (discardPartial cache input.resourceHash,
        err (.oversizedChunk input.data.length cache.limits.maxChunkBytes))
    else if input.byteOffset ≠ assembly.nextOffset then
      (discardPartial cache input.resourceHash,
        err (.nonContiguousOffset assembly.nextOffset input.byteOffset))
    else if assembly.encodedLength < assembly.nextOffset then (cache, .error .panicked)
    else if assembly.encodedLength - assembly.nextOffset < input.data.length then
      (discardPartial cache input.resourceHash,
        match checkedAdd assembly.nextOffset input.data.length with
        | some actual => err (.lengthMismatch assembly.encodedLength actual)
        | none => .error .panicked)
    else
      let assembly : PartialAssembly :=
        { assembly with
          buffer := assembly.buffer ++ input.data
          nextOffset := assembly.nextOffset + input.data.length }
      let stored : ResourceCache :=
        { cache with partials := cache.partials.insert input.resourceHash assembly }
      if assembly.nextOffset < assembly.encodedLength then (stored, .ok none)
      else if assembly.nextOffset ≠ assembly.encodedLength then
        (discardPartial stored input.resourceHash,
          err (.lengthMismatch assembly.encodedLength assembly.nextOffset))
      else
        match finalizeAssembly oracles (discardPartial stored input.resourceHash)
            input.resourceHash assembly.metadata assembly.buffer with
        | (cache, .error fault) => (cache, .error fault)
        | (cache, .ok commit) => (cache, .ok (some commit))

/-- `requireUnmanagedAccess`: the unscoped calls are refused while an owner is active. -/
def requireUnmanagedAccess (cache : ResourceCache) : Except ResourceCacheError Unit :=
  match cache.activeReferenceOwnerEpoch with
  | none => .ok ()
  | some epoch => .error (.managedReferenceOwnerActive epoch)

def unmanaged {α : Type} (cache : ResourceCache) (body : Attempt α) : Attempt α :=
  match requireUnmanagedAccess cache with
  | .error e => (cache, err e)
  | .ok () => body

def ingestMetadata (cache : ResourceCache) (input : ResourceMetadataInput) :
    Attempt (Option ResourceCommit) :=
  unmanaged cache (ingestMetadataForActiveOwner oracles cache input)

def ingestChunk (cache : ResourceCache) (input : ResourceChunkInput) :
    Attempt (Option ResourceCommit) :=
  unmanaged cache (ingestChunkForActiveOwner oracles cache input)

/-- `ingestMetadata(_:ownerEpoch:)`. -/
def ingestMetadataOwned (cache : ResourceCache) (input : ResourceMetadataInput)
    (ownerEpoch : Nat) : Attempt (Option ResourceCommit) :=
  if cache.activeReferenceOwnerEpoch = some ownerEpoch then
    ingestMetadataForActiveOwner oracles cache input
  else (cache, .ok none)

/-- `ingestChunk(_:ownerEpoch:)`. -/
def ingestChunkOwned (cache : ResourceCache) (input : ResourceChunkInput) (ownerEpoch : Nat) :
    Attempt (Option ResourceCommit) :=
  if cache.activeReferenceOwnerEpoch = some ownerEpoch then
    ingestChunkForActiveOwner oracles cache input
  else (cache, .ok none)

def lookup (cache : ResourceCache) (hash : ResourceHash) :
    ResourceCache × Option ValidatedDecodedImage :=
  match cache.committed[hash]? with
  | none => (cache, none)
  | some image => (touchCommitted cache hash, some image)

def peekCommitted (cache : ResourceCache) (hashes : Finset ResourceHash) :
    List ValidatedDecodedImage :=
  (cache.committedOrder.filter fun hash => decide (hash ∈ hashes)).filterMap
    fun hash => cache.committed[hash]?

/-- The hits are returned in the order they stood in before they were touched. -/
def setLiveReferencesAndLookup (cache : ResourceCache) (hashes : Finset ResourceHash) :
    Attempt (List ValidatedDecodedImage) :=
  unmanaged cache
    (let hits := cache.committedOrder.filter fun hash => decide (hash ∈ hashes)
     (hits.foldl touchCommitted { cache with liveReferences := hashes },
      .ok (hits.filterMap fun hash => cache.committed[hash]?)))

def setLiveReferences (cache : ResourceCache) (hashes : Finset ResourceHash) : Attempt Unit :=
  unmanaged cache ({ cache with liveReferences := hashes }, .ok ())

/-- `setLiveReferences(_:ownerEpoch:)`. -/
def setLiveReferencesOwned (cache : ResourceCache) (hashes : Finset ResourceHash)
    (ownerEpoch : Nat) : ResourceCache × Bool :=
  if cache.activeReferenceOwnerEpoch = some ownerEpoch then
    ({ cache with liveReferences := hashes }, true)
  else (cache, false)

def clearPartials (cache : ResourceCache) : Attempt Unit :=
  unmanaged cache (discardAllPartials cache, .ok ())

/-- `clearPartials(ownerEpoch:)`. -/
def clearPartialsOwned (cache : ResourceCache) (ownerEpoch : Nat) : ResourceCache × Bool :=
  if cache.activeReferenceOwnerEpoch = some ownerEpoch then (discardAllPartials cache, true)
  else (cache, false)

/-- `activateReferenceOwner` up to its suspension. Only a newer epoch changes the cache. -/
def activateReferenceOwner (cache : ResourceCache) (epoch : Nat)
    (liveReferences : Finset ResourceHash) : ResourceCache :=
  let adopted := discardAllPartials
    { cache with
      activeReferenceOwnerEpoch := some epoch
      liveReferences := liveReferences
      renderReferenceLease := none }
  match cache.activeReferenceOwnerEpoch with
  | some active => if epoch ≤ active then cache else adopted
  | none => adopted

/-- `deactivateReferenceOwner` after its suspension. -/
def releaseReferenceOwner (cache : ResourceCache) (epoch : Nat) : ResourceCache × Bool :=
  if cache.activeReferenceOwnerEpoch = some epoch then
    (discardAllPartials
      { cache with
        activeReferenceOwnerEpoch := none
        liveReferences := ∅
        renderReferenceLease := none }, true)
  else (cache, false)

def beginRenderReferenceLease (cache : ResourceCache) (ownerEpoch renderToken : Nat)
    (hashes : Finset ResourceHash) : ResourceCache × Option (List ValidatedDecodedImage) :=
  let taken := (({ cache with renderReferenceLease := some ⟨ownerEpoch, renderToken, hashes⟩ } :
    ResourceCache), some (peekCommitted cache hashes))
  if cache.activeReferenceOwnerEpoch = some ownerEpoch then
    match cache.renderReferenceLease with
    | some lease =>
      if lease.ownerEpoch ≠ ownerEpoch ∨ lease.renderToken ≠ renderToken then (cache, none)
      else taken
    | none => taken
  else (cache, none)

def finishRenderReferenceLease (cache : ResourceCache) (ownerEpoch renderToken : Nat)
    (liveReferences : Finset ResourceHash) : ResourceCache × Bool :=
  match cache.renderReferenceLease with
  | some lease =>
    if cache.activeReferenceOwnerEpoch = some ownerEpoch ∧ lease.ownerEpoch = ownerEpoch ∧
        lease.renderToken = renderToken then
      ({ cache with liveReferences := liveReferences, renderReferenceLease := none }, true)
    else (cache, false)
  | none => (cache, false)

/-- `retainedBytes`. -/
def retainedBytes (cache : ResourceCache) : Nat :=
  cache.committedDecodedBytes +
    (cache.committed.toList.map fun entry => entry.2.mediaType.utf8ByteSize).sum +
    (cache.partials.toList.map fun entry =>
      entry.2.buffer.length + entry.2.metadata.mediaType.utf8ByteSize).sum

/-- The operations that change the cache; an owner is given where the call is scoped. -/
inductive Input where
  | ingestMetadata (input : ResourceMetadataInput) (owner : Option Nat)
  | ingestChunk (input : ResourceChunkInput) (owner : Option Nat)
  | lookup (hash : ResourceHash)
  | setLiveReferencesAndLookup (hashes : Finset ResourceHash)
  | setLiveReferences (hashes : Finset ResourceHash) (owner : Option Nat)
  | clearPartials (owner : Option Nat)
  | activateReferenceOwner (epoch : Nat) (liveReferences : Finset ResourceHash)
  | releaseReferenceOwner (epoch : Nat)
  | beginRenderReferenceLease (ownerEpoch renderToken : Nat) (hashes : Finset ResourceHash)
  | finishRenderReferenceLease (ownerEpoch renderToken : Nat)
      (liveReferences : Finset ResourceHash)

def perform (cache : ResourceCache) : Input → Attempt (Option ResourceCommit)
  | .ingestMetadata input none => ingestMetadata oracles cache input
  | .ingestMetadata input (some owner) => ingestMetadataOwned oracles cache input owner
  | .ingestChunk input none => ingestChunk oracles cache input
  | .ingestChunk input (some owner) => ingestChunkOwned oracles cache input owner
  | .lookup hash => ((lookup cache hash).1, .ok none)
  | .setLiveReferencesAndLookup hashes =>
    ((setLiveReferencesAndLookup cache hashes).1,
      (setLiveReferencesAndLookup cache hashes).2.map fun _ => none)
  | .setLiveReferences hashes none =>
    ((setLiveReferences cache hashes).1, (setLiveReferences cache hashes).2.map fun _ => none)
  | .setLiveReferences hashes (some owner) =>
    ((setLiveReferencesOwned cache hashes owner).1, .ok none)
  | .clearPartials none => ((clearPartials cache).1, (clearPartials cache).2.map fun _ => none)
  | .clearPartials (some owner) => ((clearPartialsOwned cache owner).1, .ok none)
  | .activateReferenceOwner epoch liveReferences =>
    (activateReferenceOwner cache epoch liveReferences, .ok none)
  | .releaseReferenceOwner epoch => ((releaseReferenceOwner cache epoch).1, .ok none)
  | .beginRenderReferenceLease ownerEpoch renderToken hashes =>
    ((beginRenderReferenceLease cache ownerEpoch renderToken hashes).1, .ok none)
  | .finishRenderReferenceLease ownerEpoch renderToken liveReferences =>
    ((finishRenderReferenceLease cache ownerEpoch renderToken liveReferences).1, .ok none)

def step (cache : ResourceCache) (input : Input) : ResourceCache := (perform oracles cache input).1

end Srui.Client.ResourceCaches

import Srui.Sessiond.ResourceOffers

/-!
What a run of critical sections keeps: an insertion a subscriber has seen was offered to it, or
its call has still to offer it.
-/

namespace Srui.Sessiond.ResourceOffers

open SemanticTree.Values Resources.ResourceStores Sessiond.ResourceTransfers

namespace Lane

/-- What the queue holds was enqueued, and nothing above the ceiling was. -/
structure Sound (lane : Lane) : Prop where
  queued : ∀ hash, lane.resources.holds hash = true → lane.Offered hash
  ceiling : ∀ entry ∈ lane.enqueued, entry.encodedLength ≤ lane.maxResourceSize

structure Carries (lane lane' : Lane) : Prop where
  maxResourceSize_eq : lane'.maxResourceSize = lane.maxResourceSize
  advertised_eq : lane'.advertised = lane.advertised
  subscribed_eq : lane'.subscribed = lane.subscribed
  seen_eq : lane'.seen = lane.seen
  enqueued : lane.enqueued ⊆ lane'.enqueued
  isClosed : lane'.isClosed = false → lane.isClosed = false
  notifyClosed : lane'.notifyClosed = false → lane.notifyClosed = false

variable {lane lane' lane'' : Lane} {entry : ResourceEntry} {hash : ResourceHash}

theorem Carries.refl (lane : Lane) : Carries lane lane :=
  ⟨rfl, rfl, rfl, rfl, List.Subset.refl _, id, id⟩

theorem Carries.trans (h : Carries lane lane') (h' : Carries lane' lane'') :
    Carries lane lane'' where
  maxResourceSize_eq := h'.maxResourceSize_eq.trans h.maxResourceSize_eq
  advertised_eq := h'.advertised_eq.trans h.advertised_eq
  subscribed_eq := h'.subscribed_eq.trans h.subscribed_eq
  seen_eq := h'.seen_eq.trans h.seen_eq
  enqueued := List.Subset.trans h.enqueued h'.enqueued
  isClosed := fun hopen => h.isClosed (h'.isClosed hopen)
  notifyClosed := fun hopen => h.notifyClosed (h'.notifyClosed hopen)

theorem Carries.wants (h : Carries lane lane') : lane'.Wants entry ↔ lane.Wants entry := by
  rw [Wants, Wants, h.maxResourceSize_eq, h.advertised_eq]

theorem Carries.offered (h : Carries lane lane') (hoffered : lane.Offered hash) :
    lane'.Offered hash := by
  obtain ⟨entry, hmem, rfl⟩ := hoffered
  exact ⟨entry, h.enqueued hmem, rfl⟩

theorem sound_empty {advertised : List Bytes} {maxResourceSize : Nat} :
    Sound { maxResourceSize, advertised } where
  queued := by simp [ResourceTransferQueue.holds]
  ceiling := by simp

theorem maybeEnqueueResource_carries (lane : Lane) (entry : ResourceEntry) :
    Carries lane (lane.maybeEnqueueResource entry) := by
  unfold maybeEnqueueResource
  split
  · exact .refl lane
  · refine ⟨rfl, rfl, rfl, rfl, ?_, id, id⟩
    dsimp only
    split
    · exact List.Subset.refl _
    · exact List.subset_append_left _ _

theorem Sound.maybeEnqueueResource_offered (h : lane.Sound)
    (hfits : entry.encodedLength ≤ lane.maxResourceSize) :
    (lane.maybeEnqueueResource entry).Offered entry.hash := by
  unfold maybeEnqueueResource Offered
  rw [if_neg (Nat.not_lt.mpr hfits)]
  dsimp only
  split
  · rename_i hheld
    exact h.queued entry.hash hheld
  · exact ⟨entry, by simp, rfl⟩

theorem Sound.maybeEnqueueResource (h : lane.Sound) (entry : ResourceEntry) :
    (lane.maybeEnqueueResource entry).Sound := by
  have hcarries := maybeEnqueueResource_carries lane entry
  rcases Nat.lt_or_ge lane.maxResourceSize entry.encodedLength with habove | hfits
  · unfold Lane.maybeEnqueueResource
    rwa [if_pos habove]
  constructor
  · intro hash hheld
    have hqueue : (lane.maybeEnqueueResource entry).resources = lane.resources.enqueue entry := by
      unfold Lane.maybeEnqueueResource
      rw [if_neg (Nat.not_lt.mpr hfits)]
    rw [hqueue, ResourceTransferQueue.holds_enqueue] at hheld
    rcases hheld with hheld | rfl
    · exact hcarries.offered (h.queued hash hheld)
    · exact h.maybeEnqueueResource_offered hfits
  · intro other hmem
    rw [hcarries.maxResourceSize_eq]
    unfold Lane.maybeEnqueueResource at hmem
    rw [if_neg (Nat.not_lt.mpr hfits)] at hmem
    dsimp only at hmem
    split at hmem
    · exact h.ceiling other hmem
    · rcases List.mem_append.mp hmem with hmem | hmem
      · exact h.ceiling other hmem
      · rwa [List.mem_singleton.mp hmem]

section Seeding

variable {knownHashes : List ResourceHash}

theorem seedExcluding_carries (entries : List ResourceEntry) (lane : Lane) :
    Carries lane (lane.seedExcluding entries knownHashes) := by
  induction entries generalizing lane with
  | nil => exact .refl lane
  | cons entry rest ih =>
    rw [seedExcluding, List.foldl_cons]
    refine Carries.trans ?_ (ih _)
    split
    · exact .refl lane
    · exact maybeEnqueueResource_carries lane entry

theorem Sound.seedExcluding (entries : List ResourceEntry) (h : lane.Sound) :
    (lane.seedExcluding entries knownHashes).Sound := by
  induction entries generalizing lane with
  | nil => exact h
  | cons entry rest ih =>
    rw [Lane.seedExcluding, List.foldl_cons]
    apply ih
    split
    · exact h
    · exact h.maybeEnqueueResource entry

theorem Sound.seedExcluding_offered {entries : List ResourceEntry} (h : lane.Sound)
    (hmem : entry ∈ entries) (hfits : entry.encodedLength ≤ lane.maxResourceSize)
    (hunknown : entry.hash ∉ knownHashes) :
    (lane.seedExcluding entries knownHashes).Offered entry.hash := by
  induction entries generalizing lane with
  | nil => simp at hmem
  | cons first rest ih =>
    rw [Lane.seedExcluding, List.foldl_cons]
    rcases List.mem_cons.mp hmem with rfl | hmem
    · rw [if_neg hunknown]
      exact (seedExcluding_carries rest _).offered (h.maybeEnqueueResource_offered hfits)
    · refine ih ?_ hmem ?_
      · split
        · exact h
        · exact h.maybeEnqueueResource first
      · split
        · exact hfits
        · rwa [(maybeEnqueueResource_carries lane first).maxResourceSize_eq]

end Seeding

theorem close_carries (lane : Lane) : Carries lane lane.close :=
  ⟨rfl, rfl, rfl, rfl, List.Subset.refl _, nofun, id⟩

theorem Sound.close (h : lane.Sound) : lane.close.Sound :=
  ⟨by simp [Lane.close, ResourceTransferQueue.holds], h.ceiling⟩

end Lane

theorem not_mem_knownResourceHashes {rawHashes : List Bytes} {limit : Nat} {hash : ResourceHash}
    (h : hash.bytes ∉ rawHashes) : hash ∉ knownResourceHashes rawHashes limit := by
  intro hmem
  obtain ⟨raw, hraw, hparsed⟩ := List.mem_filterMap.mp hmem
  split at hparsed
  · cases hparsed
    exact h (List.mem_of_mem_take hraw)
  · cases hparsed

variable {entry : ResourceEntry}

theorem mem_retainedEntries {store : ResourceStore}
    (hsound : Resources.ResourceStores.Sound store) :
    entry ∈ retainedEntries store ↔ ∃ hash : ResourceHash, store.entries[hash]? = some entry := by
  rw [retainedEntries, List.mem_filterMap]
  constructor
  · rintro ⟨hash, -, hentry⟩
    exact ⟨hash, hentry⟩
  · rintro ⟨hash, hentry⟩
    exact ⟨hash, hsound.tallied.listing.mem_of_lookup hentry, hentry⟩

namespace Server

variable {hashBytes : Bytes → ResourceHash} {server server' : Server}

/-- The invariant of a session: every open subscription is registered, has seen what is retained,
and was offered what it has seen and wants, unless that is still to be offered. -/
structure Sound (server : Server) : Prop where
  store : Resources.ResourceStores.Sound server.resources
  keyed : ∀ (hash : ResourceHash) (entry : ResourceEntry),
    server.resources.entries[hash]? = some entry → entry.hash = hash
  fresh : ∀ handle, server.nextHandle ≤ handle → (server.lanes handle).subscribed = false
  booting : ∀ handle ∈ server.bootstrap, handle < server.nextHandle
  registered : ∀ handle < server.nextHandle, server.hubClosed = false →
    (server.lanes handle).isClosed = false → (server.lanes handle).notifyClosed = false →
      handle ∈ server.subscribers
  lane : ∀ handle, (server.lanes handle).Sound
  seen : ∀ handle, (server.lanes handle).subscribed = true →
    ∀ insertion ∈ server.retainedInsertions, insertion ∈ (server.lanes handle).seen
  offered : ∀ handle, server.Live handle → ∀ insertion ∈ (server.lanes handle).seen,
    (server.lanes handle).Wants insertion.entry →
      insertion ∈ server.pending ∨ (server.lanes handle).Offered insertion.entry.hash

theorem sound_initial (limits : ResourceLimits) : Sound (initial limits) where
  store := withLimits_sound limits
  keyed := by simp [initial, ResourceStore.withLimits]
  fresh := fun _ _ => rfl
  booting := by simp [initial]
  registered := by simp [initial]
  lane := fun _ => Lane.sound_empty
  seen := by simp [initial]
  offered := by simp [initial]

variable {handle : Nat}

theorem Sound.live_lt (h : server.Sound) (hlive : server.Live handle) :
    handle < server.nextHandle := by
  refine Nat.lt_of_not_le fun hle => ?_
  have hsubscribed := hlive.2.1
  rw [h.fresh handle hle] at hsubscribed
  cases hsubscribed

theorem Sound.live_registered (h : server.Sound) (hlive : server.Live handle) :
    handle ∈ server.subscribers :=
  h.registered handle (h.live_lt hlive) hlive.1 hlive.2.2.1 hlive.2.2.2

theorem kept_iff : server.kept handle = true ↔
    (server.lanes handle).notifyClosed = false ∧ (server.lanes handle).isClosed = false := by
  simp [kept]

structure Carries (server server' : Server) : Prop where
  resources_eq : server'.resources = server.resources
  latest_eq : server'.latest = server.latest
  pending_eq : server'.pending = server.pending
  nextHandle_eq : server'.nextHandle = server.nextHandle
  bootstrap_eq : server'.bootstrap = server.bootstrap
  returned_eq : server'.returned = server.returned
  hubClosed : server'.hubClosed = false → server.hubClosed = false
  subscribers : ∀ handle ∈ server.subscribers, server'.hubClosed = false →
    (server'.lanes handle).isClosed = false → (server'.lanes handle).notifyClosed = false →
      handle ∈ server'.subscribers
  lanes : ∀ handle, Lane.Carries (server.lanes handle) (server'.lanes handle)

theorem Carries.live (h : Carries server server') (hlive : server'.Live handle) :
    server.Live handle := by
  obtain ⟨hopen, hsubscribed, hclosed, hnotify⟩ := hlive
  have hlane := h.lanes handle
  refine ⟨h.hubClosed hopen, ?_, hlane.isClosed hclosed, hlane.notifyClosed hnotify⟩
  rwa [← hlane.subscribed_eq]

theorem Sound.carried (h : server.Sound) (hcarries : Carries server server')
    (hlanes : ∀ handle, (server'.lanes handle).Sound) : server'.Sound where
  store := by
    rw [hcarries.resources_eq]
    exact h.store
  keyed := by
    rw [hcarries.resources_eq]
    exact h.keyed
  fresh := by
    intro handle hle
    rw [hcarries.nextHandle_eq] at hle
    rw [(hcarries.lanes handle).subscribed_eq]
    exact h.fresh handle hle
  booting := by
    rw [hcarries.bootstrap_eq, hcarries.nextHandle_eq]
    exact h.booting
  registered := by
    intro handle hlt hopen hclosed hnotify
    rw [hcarries.nextHandle_eq] at hlt
    have hlane := hcarries.lanes handle
    refine hcarries.subscribers handle ?_ hopen hclosed hnotify
    exact h.registered handle hlt (hcarries.hubClosed hopen) (hlane.isClosed hclosed)
      (hlane.notifyClosed hnotify)
  lane := hlanes
  seen := by
    intro handle hsubscribed insertion hmem
    have hlane := hcarries.lanes handle
    rw [hlane.subscribed_eq] at hsubscribed
    rw [hlane.seen_eq]
    refine h.seen handle hsubscribed insertion ?_
    rwa [retainedInsertions, hcarries.resources_eq, hcarries.latest_eq] at hmem
  offered := by
    intro handle hlive insertion hmem hwants
    have hlane := hcarries.lanes handle
    rw [hlane.seen_eq] at hmem
    rw [hcarries.pending_eq]
    exact (h.offered handle (hcarries.live hlive) insertion hmem (hlane.wants.mp hwants)).imp
      id hlane.offered

theorem PromisesKept.carried (h : server.PromisesKept) (hcarries : Carries server server') :
    server'.PromisesKept := by
  intro handle hlt hlive entry hreturned insertion hseen hhash hwants hwants'
  have hlane := hcarries.lanes handle
  rw [hcarries.nextHandle_eq] at hlt
  rw [hcarries.returned_eq] at hreturned
  rw [hlane.seen_eq] at hseen
  exact hlane.offered (h handle hlt (hcarries.live hlive) entry hreturned insertion hseen hhash
    (hlane.wants.mp hwants) (hlane.wants.mp hwants'))

variable {f : Lane → Lane}

theorem onLane_lanes {other : Nat} :
    (server.onLane handle f).lanes other =
      if other = handle then f (server.lanes handle) else server.lanes other := by
  simp [onLane, setLane, Function.update_apply]

theorem onLane_carries
    (hf : Lane.Carries (server.lanes handle) (f (server.lanes handle))) :
    Carries server (server.onLane handle f) := by
  refine ⟨rfl, rfl, rfl, rfl, rfl, rfl, id, fun _ hmem _ _ _ => hmem, fun other => ?_⟩
  rw [onLane_lanes]
  split
  · rename_i heq
    rwa [heq]
  · exact .refl _

theorem onLane_lane (h : server.Sound)
    (hf : (f (server.lanes handle)).Sound) (other : Nat) :
    ((server.onLane handle f).lanes other).Sound := by
  rw [onLane_lanes]
  split
  · exact hf
  · exact h.lane other

theorem onLane_keeps (h : server.Sound)
    (hf : Lane.Carries (server.lanes handle) (f (server.lanes handle)))
    (hsound : (f (server.lanes handle)).Sound) :
    (server.onLane handle f).Sound ∧
      (server.PromisesKept → (server.onLane handle f).PromisesKept) :=
  ⟨h.carried (onLane_carries hf) (onLane_lane h hsound),
    fun hkept => hkept.carried (onLane_carries hf)⟩

section Passes

theorem publishResource_carries (entry : ResourceEntry) :
    Carries server (server.publishResource entry) := by
  refine ⟨rfl, rfl, rfl, rfl, rfl, rfl, id, ?_, fun handle => ?_⟩
  · intro handle hmem _ hclosed hnotify
    refine List.mem_filter.mpr ⟨hmem, kept_iff.mpr ?_⟩
    dsimp only [publishResource] at hclosed hnotify
    split at hclosed
    · rename_i hpass
      exact kept_iff.mp hpass.2
    · rename_i hpass
      rw [if_neg hpass] at hnotify
      exact ⟨hnotify, hclosed⟩
  · dsimp only [publishResource]
    split
    · exact Lane.maybeEnqueueResource_carries _ entry
    · exact .refl _

theorem Sound.publishResource (h : server.Sound) (entry : ResourceEntry) :
    (server.publishResource entry).Sound := by
  refine h.carried (publishResource_carries entry) fun handle => ?_
  dsimp only [Server.publishResource]
  split
  · exact (h.lane handle).maybeEnqueueResource entry
  · exact h.lane handle

theorem Sound.publishResource_offered (h : server.Sound) {handle : Nat}
    (hlive : (server.publishResource entry).Live handle)
    (hwants : ((server.publishResource entry).lanes handle).Wants entry) :
    ((server.publishResource entry).lanes handle).Offered entry.hash := by
  have hcarries : Carries server (server.publishResource entry) := publishResource_carries entry
  have hbefore := hcarries.live hlive
  have hfits := ((hcarries.lanes handle).wants.mp hwants).1
  dsimp only [Server.publishResource]
  rw [if_pos ⟨h.live_registered hbefore, kept_iff.mpr ⟨hbefore.2.2.2, hbefore.2.2.1⟩⟩]
  exact (h.lane handle).maybeEnqueueResource_offered hfits

theorem publishTransaction_carries (full : List Nat) :
    Carries server (server.publishTransaction full) := by
  refine ⟨rfl, rfl, rfl, rfl, rfl, rfl, id, ?_, fun handle => ?_⟩
  · intro handle hmem _ hclosed hnotify
    dsimp only [publishTransaction] at hclosed hnotify ⊢
    rw [List.mem_filter, Bool.and_eq_true, kept_iff, decide_eq_true_eq]
    split at hclosed
    · cases hclosed
    · rename_i hpass
      rw [if_neg hpass] at hnotify
      refine ⟨hmem, ⟨hnotify, hclosed⟩, fun hfull => ?_⟩
      exact hpass ⟨hmem, kept_iff.mpr ⟨hnotify, hclosed⟩, hfull⟩
  · dsimp only [publishTransaction]
    split
    · exact Lane.close_carries _
    · exact .refl _

theorem publishTransaction_keeps (h : server.Sound) (full : List Nat) :
    (server.publishTransaction full).Sound ∧
      (server.PromisesKept → (server.publishTransaction full).PromisesKept) := by
  refine ⟨h.carried (publishTransaction_carries full) fun handle => ?_,
    fun hkept => hkept.carried (publishTransaction_carries full)⟩
  · dsimp only [publishTransaction]
    split
    · exact (h.lane handle).close
    · exact h.lane handle

theorem drainHub_carries (hclosed : server.hubClosed = true) :
    Carries server server.drainHub := by
  refine ⟨rfl, rfl, rfl, rfl, rfl, rfl, id, ?_, fun handle => ?_⟩
  · intro handle _ hopen
    change server.hubClosed = false at hopen
    rw [hclosed] at hopen
    cases hopen
  · dsimp only [drainHub]
    split
    · exact ⟨rfl, rfl, rfl, rfl, List.Subset.refl _, nofun, id⟩
    · exact .refl _

theorem drainHub_keeps (h : server.Sound) (hclosed : server.hubClosed = true) :
    server.drainHub.Sound ∧ (server.PromisesKept → server.drainHub.PromisesKept) := by
  refine ⟨h.carried (drainHub_carries hclosed) fun handle => ?_,
    fun hkept => hkept.carried (drainHub_carries hclosed)⟩
  · dsimp only [drainHub]
    split
    · exact ⟨(h.lane handle).queued, (h.lane handle).ceiling⟩
    · exact h.lane handle

theorem popFrame_keeps (h : server.Sound) (handle : Nat) :
    (server.popFrame handle).Sound ∧
      (server.PromisesKept → (server.popFrame handle).PromisesKept) := by
  unfold popFrame
  rcases hpop : (server.lanes handle).resources.popFrame with fault | ⟨next, frame⟩
  · exact ⟨h, id⟩
  · refine onLane_keeps h ⟨rfl, rfl, rfl, rfl, List.Subset.refl _, id, id⟩ ?_
    refine ⟨fun hash hheld => ?_, (h.lane handle).ceiling⟩
    exact (h.lane handle).queued hash (ResourceTransferQueue.holds_of_popFrame hpop hheld)

end Passes

section Returns

theorem Sound.returns (h : server.Sound) (entry : ResourceEntry) :
    (server.returns entry).Sound :=
  ⟨h.store, h.keyed, h.fresh, h.booting, h.registered, h.lane, h.seen, h.offered⟩

theorem PromisesKept.returns (h : server.PromisesKept)
    (hoffered : ∀ handle, server.Live handle → (server.lanes handle).Wants entry →
      (server.lanes handle).Offered entry.hash) :
    (server.returns entry).PromisesKept := by
  intro handle hlt hlive other hreturned insertion hseen hhash hwants hwants'
  rcases List.mem_append.mp hreturned with hbefore | hnow
  · exact h handle hlt hlive other hbefore insertion hseen hhash hwants hwants'
  · obtain rfl := List.mem_singleton.mp hnow
    exact hoffered handle hlive hwants

end Returns

end Server

end Srui.Sessiond.ResourceOffers

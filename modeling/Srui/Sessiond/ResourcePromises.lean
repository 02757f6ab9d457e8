import Srui.Sessiond.OfferRuns

/-!
When every resource that a publication returned was offered to every subscriber.
-/

namespace Srui.Sessiond.ResourceOffers

open Basic.Runs SemanticTree.Values Resources.ResourceStores

namespace Server

variable {hashBytes : Bytes → ResourceHash} {server : Server}

variable {insertion : Insertion}

theorem mem_retainedInsertions (h : server.Sound) :
    insertion ∈ server.retainedInsertions ↔
      server.resources.entries[insertion.entry.hash]? = some insertion.entry ∧
        insertion.serial = server.latest insertion.entry.hash := by
  rw [retainedInsertions, List.mem_map]
  constructor
  · rintro ⟨entry, hmem, rfl⟩
    obtain ⟨hash, hentry⟩ := (mem_retainedEntries h.store).mp hmem
    obtain rfl := h.keyed hash entry hentry
    exact ⟨hentry, rfl⟩
  · rintro ⟨hentry, hserial⟩
    refine ⟨insertion.entry, (mem_retainedEntries h.store).mpr ⟨_, hentry⟩, ?_⟩
    rw [← hserial]

def inserted (server : Server) (store : ResourceStore) (hash : ResourceHash)
    (entry : ResourceEntry) : Server :=
  { server with
    resources := store
    lanes := fun handle => (server.lanes handle).see ⟨server.nextSerial, entry⟩
    pending := server.pending ++ [⟨server.nextSerial, entry⟩]
    nextSerial := server.nextSerial + 1
    latest := Function.update server.latest hash server.nextSerial }

theorem insert_cases (hashBytes : Bytes → ResourceHash) (server : Server) (bytes : Bytes)
    (protectedHashes : Finset ResourceHash) :
    server.insert hashBytes bytes protectedHashes = server ∨
      (∃ entry, server.resources.entries[hashBytes bytes]? = some entry ∧
        server.insert hashBytes bytes protectedHashes = server.returns entry) ∨
      ∃ store, Inserts hashBytes server.resources bytes protectedHashes store ∧
        Resources.ResourceStores.publishResourceProtecting hashBytes server.resources bytes
          protectedHashes = (store, .ok ⟨hashBytes bytes, true, entryOf hashBytes bytes⟩) ∧
        server.insert hashBytes bytes protectedHashes =
          server.inserted store (hashBytes bytes) (entryOf hashBytes bytes) := by
  unfold insert
  rcases hresult : (publishResourceProtecting hashBytes server.resources bytes
    protectedHashes).2 with fault | outcome
  · dsimp only
    rw [hresult]
    exact .inl rfl
  dsimp only
  rw [hresult]
  rcases publish_ok_cases hashBytes hresult with ⟨hretained, hentry⟩ | ⟨rfl, hinserts⟩
  · refine .inr (.inl ⟨outcome.entry, hentry, ?_⟩)
    simp [hretained]
  · exact .inr (.inr ⟨_, hinserts, Prod.ext rfl hresult, by simp [inserted]⟩)

theorem mem_seen_see {lane : Lane} {other : Insertion} :
    other ∈ (lane.see insertion).seen ↔
      other ∈ lane.seen ∨ lane.subscribed = true ∧ other = insertion := by
  unfold Lane.see
  split
  all_goals
    rename_i hsubscribed
    simp [hsubscribed]

theorem see_eq (lane : Lane) (insertion : Insertion) :
    ∃ seen, lane.see insertion = { lane with seen } := by
  unfold Lane.see
  split
  · exact ⟨_, rfl⟩
  · exact ⟨lane.seen, rfl⟩

section Insertions

variable {store : ResourceStore} {bytes : Bytes} {protectedHashes : Finset ResourceHash}

theorem inserted_live {hash : ResourceHash} {entry : ResourceEntry} {handle : Nat} :
    (server.inserted store hash entry).Live handle ↔ server.Live handle := by
  obtain ⟨seen, hsee⟩ := see_eq (server.lanes handle) ⟨server.nextSerial, entry⟩
  dsimp only [Live, inserted]
  rw [hsee]

theorem Sound.inserted (h : server.Sound) (hstore : Resources.ResourceStores.Sound store)
    (hinserts : Inserts hashBytes server.resources bytes protectedHashes store) :
    (server.inserted store (hashBytes bytes) (entryOf hashBytes bytes)).Sound := by
  have hkeyed : ∀ (hash : ResourceHash) (entry : ResourceEntry),
      store.entries[hash]? = some entry → entry.hash = hash := by
    intro hash entry hentry
    rcases hinserts.lookup hashBytes hentry with ⟨rfl, rfl⟩ | ⟨-, hbefore⟩
    · rfl
    · exact h.keyed hash entry hbefore
  have hfields : ∀ handle, ∃ seen,
      (server.inserted store (hashBytes bytes) (entryOf hashBytes bytes)).lanes handle =
        { server.lanes handle with seen } := fun handle => see_eq (server.lanes handle) _
  constructor
  · exact hstore
  · exact hkeyed
  · intro handle hle
    obtain ⟨seen, hlane⟩ := hfields handle
    rw [hlane]
    exact h.fresh handle hle
  · exact h.booting
  · intro handle hlt hopen hclosed hnotify
    obtain ⟨seen, hlane⟩ := hfields handle
    rw [hlane] at hclosed hnotify
    exact h.registered handle hlt hopen hclosed hnotify
  · intro handle
    obtain ⟨seen, hlane⟩ := hfields handle
    rw [hlane]
    exact ⟨(h.lane handle).queued, (h.lane handle).ceiling⟩
  · intro handle hsubscribed insertion hmem
    obtain ⟨seen, hlane⟩ := hfields handle
    rw [hlane] at hsubscribed
    change (server.lanes handle).subscribed = true at hsubscribed
    -- What is retained is the new entry or one that was retained, with its insertion.
    obtain ⟨entry, hentry, rfl⟩ := List.mem_map.mp hmem
    obtain ⟨hash, hlookup⟩ := (mem_retainedEntries hstore).mp hentry
    obtain rfl := hkeyed hash entry hlookup
    refine mem_seen_see.mpr ?_
    rcases hinserts.lookup hashBytes hlookup with ⟨hhash, rfl⟩ | ⟨hother, hbefore⟩
    · refine .inr ⟨hsubscribed, ?_⟩
      simp [Server.inserted, entryOf]
    · refine .inl (h.seen handle hsubscribed _ ((mem_retainedInsertions h).mpr ⟨hbefore, ?_⟩))
      simp [Server.inserted, hother]
  · intro handle hlive insertion hmem hwants
    obtain ⟨seen, hlane⟩ := hfields handle
    rw [hlane] at hwants ⊢
    rcases mem_seen_see.mp hmem with hmem | ⟨-, rfl⟩
    · refine (h.offered handle (inserted_live.mp hlive) insertion hmem hwants).imp ?_ id
      exact fun hpending => List.mem_append_left _ hpending
    · exact .inl (List.mem_append_right _ (List.mem_singleton.mpr rfl))

theorem PromisesKept.inserted (h : server.PromisesKept) {hash : ResourceHash}
    {entry : ResourceEntry} (hkeyed : entry.hash = hash)
    (hoffered : ∀ other ∈ server.returned, other.hash = hash → ∀ handle < server.nextHandle,
      server.Live handle → (server.lanes handle).Wants other →
        (server.lanes handle).Offered other.hash) :
    (server.inserted store hash entry).PromisesKept := by
  intro handle hlt hlive other hreturned insertion hseen hhash hwants hwants'
  have hbefore := inserted_live.mp hlive
  obtain ⟨seen, hlane⟩ := see_eq (server.lanes handle) ⟨server.nextSerial, entry⟩
  have hlanes : (server.inserted store hash entry).lanes handle =
      { server.lanes handle with seen } := hlane
  rw [hlanes] at hwants hwants' ⊢
  rcases mem_seen_see.mp hseen with hold | ⟨-, rfl⟩
  · exact h handle hlt hbefore other hreturned insertion hold hhash hwants hwants'
  · exact hoffered other hreturned (hhash.symm.trans hkeyed) handle hlt hbefore hwants

end Insertions

theorem Sound.retained_offered (h : server.Sound) {hash : ResourceHash} {entry : ResourceEntry}
    (hentry : server.resources.entries[hash]? = some entry)
    (hoffered : ⟨server.latest hash, entry⟩ ∉ server.pending) {handle : Nat}
    (hlive : server.Live handle) (hwants : (server.lanes handle).Wants entry) :
    (server.lanes handle).Offered entry.hash := by
  obtain rfl := h.keyed hash entry hentry
  have hseen := h.seen handle hlive.2.1 ⟨server.latest entry.hash, entry⟩
    ((mem_retainedInsertions h).mpr ⟨hentry, rfl⟩)
  exact (h.offered handle hlive _ hseen hwants).resolve_left hoffered

theorem insert_keeps (h : server.Sound) (bytes : Bytes)
    (protectedHashes : Finset ResourceHash) :
    (server.insert hashBytes bytes protectedHashes).Sound ∧
      (server.PromisesKept → Careful hashBytes server (.insert bytes protectedHashes) →
        (server.insert hashBytes bytes protectedHashes).PromisesKept) := by
  rcases insert_cases hashBytes server bytes protectedHashes with
    hsame | ⟨entry, hentry, hreturns⟩ | ⟨store, hinserts, hpublished, hinserted⟩
  · rw [hsame]
    exact ⟨h, fun hkept _ => hkept⟩
  · rw [hreturns]
    refine ⟨h.returns entry, fun hkept hcareful => hkept.returns ?_⟩
    intro handle hlive hwants
    exact h.retained_offered hentry (hcareful.1 entry hentry) hlive hwants
  · rw [hinserted]
    have hstore := publish_sound hashBytes h.store bytes protectedHashes
    rw [hpublished] at hstore
    exact ⟨h.inserted hstore hinserts,
      fun hkept hcareful => hkept.inserted rfl (hcareful.2 hinserts.fresh)⟩

section Offers

/-- The calls that have still to make their offer, without one of them. -/
def settle (server : Server) (index : Nat) : Server :=
  { server with pending := server.pending.eraseIdx index }

theorem mem_pending_settle {index : Nat} {other : Insertion}
    (hindex : server.pending[index]? = some insertion) (hmem : other ∈ server.pending) :
    other = insertion ∨ other ∈ (server.settle index).pending := by
  obtain ⟨place, hplace⟩ := List.mem_iff_getElem?.mp hmem
  rcases eq_or_ne place index with rfl | hne
  · rw [hindex] at hplace
    exact .inl (Option.some.inj hplace).symm
  · exact .inr (List.mem_eraseIdx_iff_getElem?.mpr ⟨place, hne, hplace⟩)

theorem Sound.settle (h : server.Sound) {index : Nat}
    (hindex : server.pending[index]? = some insertion) (hoffered : ∀ handle, server.Live handle →
      (server.lanes handle).Wants insertion.entry →
        (server.lanes handle).Offered insertion.entry.hash) :
    (server.settle index).Sound := by
  refine ⟨h.store, h.keyed, h.fresh, h.booting, h.registered, h.lane, h.seen, ?_⟩
  intro handle hlive other hmem hwants
  rcases h.offered handle hlive other hmem hwants with hpending | hdone
  · rcases mem_pending_settle hindex hpending with rfl | hpending
    · exact .inr (hoffered handle hlive hwants)
    · exact .inl hpending
  · exact .inr hdone

theorem offer_keeps (h : server.Sound) (index : Nat) (sawOpen : Bool) :
    (server.offer index sawOpen).Sound ∧
      (server.PromisesKept → (server.offer index sawOpen).PromisesKept) := by
  unfold offer
  rcases hindex : server.pending[index]? with _ | insertion
  · exact ⟨h, id⟩
  dsimp only
  split
  · rename_i hskipped
    have hdead : ∀ handle, ¬server.Live handle := by
      intro handle hlive
      have hopen := hlive.1
      rw [hskipped.1] at hopen
      cases hopen
    have hsettled : (server.settle index).Sound :=
      h.settle hindex fun handle hlive => absurd hlive (hdead handle)
    refine ⟨hsettled.returns _, fun hkept => ?_⟩
    have hbefore : (server.settle index).PromisesKept := hkept
    exact hbefore.returns fun handle hlive => absurd hlive (hdead handle)
  · -- The offer and the settling of the call change different parts of the state.
    have hsettled : ((server.publishResource insertion.entry).settle index).Sound :=
      (h.publishResource insertion.entry).settle hindex fun handle hlive hwants =>
        h.publishResource_offered hlive hwants
    refine ⟨hsettled.returns insertion.entry, fun hkept => ?_⟩
    have hpublished : (server.publishResource insertion.entry).PromisesKept :=
      hkept.carried (publishResource_carries insertion.entry)
    have hbefore : ((server.publishResource insertion.entry).settle index).PromisesKept :=
      hpublished
    exact hbefore.returns fun handle hlive hwants => h.publishResource_offered hlive hwants

end Offers

section Subscriptions

theorem subscribe_keeps (h : server.Sound) (advertised : List Bytes) (maxResourceSize : Nat)
    (sawOpen : Bool) :
    (server.subscribe advertised maxResourceSize sawOpen).Sound ∧
      (server.PromisesKept →
        (server.subscribe advertised maxResourceSize sawOpen).PromisesKept) := by
  unfold subscribe
  split
  · exact ⟨h, id⟩
  refine ⟨⟨h.store, h.keyed, ?_, ?_, ?_, ?_, ?_, ?_⟩, ?_⟩
  · intro handle hle
    change server.nextHandle + 1 ≤ handle at hle
    dsimp only
    rw [Function.update_of_ne (by omega)]
    exact h.fresh handle (by omega)
  · rintro handle ⟨⟩
    exact Nat.lt_succ_self _
  · intro handle hlt hopen hclosed hnotify
    change handle < server.nextHandle + 1 at hlt
    dsimp only at hclosed hnotify ⊢
    rcases eq_or_ne handle server.nextHandle with rfl | hne
    · exact List.mem_append_right _ (List.mem_singleton.mpr rfl)
    rw [Function.update_of_ne hne] at hclosed hnotify
    refine List.mem_append_left _ (List.mem_filter.mpr ⟨?_, kept_iff.mpr ⟨hnotify, hclosed⟩⟩)
    exact h.registered handle (by omega) hopen hclosed hnotify
  · intro handle
    dsimp only
    rw [Function.update_apply]
    split
    · exact Lane.sound_empty
    · exact h.lane handle
  · intro handle hsubscribed insertion hmem
    dsimp only at hsubscribed ⊢
    rcases eq_or_ne handle server.nextHandle with rfl | hne
    · rw [Function.update_self] at hsubscribed
      cases hsubscribed
    · rw [Function.update_of_ne hne] at hsubscribed ⊢
      exact h.seen handle hsubscribed insertion hmem
  · intro handle hlive insertion hmem hwants
    dsimp only [Live] at hlive hmem hwants ⊢
    rcases eq_or_ne handle server.nextHandle with rfl | hne
    · rw [Function.update_self] at hlive
      cases hlive.2.1
    · rw [Function.update_of_ne hne] at hlive hmem hwants ⊢
      exact h.offered handle hlive insertion hmem hwants
  · intro hkept handle hlt hlive entry hreturned insertion hseen hhash hwants hwants'
    dsimp only [Live] at hlive hseen hwants hwants' ⊢
    rcases eq_or_ne handle server.nextHandle with rfl | hne
    · rw [Function.update_self] at hlive
      cases hlive.2.1
    · rw [Function.update_of_ne hne] at hlive hseen hwants hwants' ⊢
      exact hkept handle (h.live_lt hlive) hlive entry hreturned insertion hseen hhash hwants hwants'

def seededLane (server : Server) (handle : Nat) : Lane :=
  if handle ∈ server.subscribers ∧ (server.lanes handle).isClosed = false then
    (server.lanes handle).seedExcluding (retainedEntries server.resources)
      (knownResourceHashes (server.lanes handle).advertised server.resources.limits.maxEntries)
  else server.lanes handle

theorem seededLane_carries (handle : Nat) :
    Lane.Carries (server.lanes handle) (server.seededLane handle) := by
  unfold seededLane
  split
  · exact Lane.seedExcluding_carries _ _
  · exact .refl _

theorem Sound.seededLane (h : server.Sound) (handle : Nat) : (server.seededLane handle).Sound := by
  unfold Server.seededLane
  split
  · exact (h.lane handle).seedExcluding _
  · exact h.lane handle

theorem Sound.seededLane_offered (h : server.Sound) {handle : Nat}
    (hlt : handle < server.nextHandle) (hopen : server.hubClosed = false)
    (hclosed : (server.seededLane handle).isClosed = false)
    (hnotify : (server.seededLane handle).notifyClosed = false) {entry : ResourceEntry}
    (hmem : entry ∈ retainedEntries server.resources)
    (hwants : (server.seededLane handle).Wants entry) :
    (server.seededLane handle).Offered entry.hash := by
  have hcarries := server.seededLane_carries handle
  obtain ⟨hfits, hunknown⟩ := hcarries.wants.mp hwants
  have hregistered := h.registered handle hlt hopen (hcarries.isClosed hclosed)
    (hcarries.notifyClosed hnotify)
  unfold Server.seededLane
  rw [if_pos ⟨hregistered, hcarries.isClosed hclosed⟩]
  exact (h.lane handle).seedExcluding_offered hmem hfits (not_mem_knownResourceHashes hunknown)

theorem seed_lanes (handle other : Nat) :
    (server.seed handle).lanes other =
      if other = handle then
        { server.seededLane handle with subscribed := true, seen := server.retainedInsertions }
      else server.lanes other := Function.update_apply _ _ _ _

theorem seed_keeps (h : server.Sound) {handle : Nat} (hlt : handle < server.nextHandle) :
    (server.seed handle).Sound ∧ (server.PromisesKept → (server.seed handle).PromisesKept) := by
  have hcarries := server.seededLane_carries handle
  have hoffered : (server.seed handle).Live handle → ∀ entry ∈ retainedEntries server.resources,
      (server.seededLane handle).Wants entry → (server.seededLane handle).Offered entry.hash := by
    intro hlive entry hmem hwants
    obtain ⟨hopen, -, hclosed, hnotify⟩ := hlive
    rw [seed_lanes, if_pos rfl] at hclosed hnotify
    exact h.seededLane_offered hlt hopen hclosed hnotify hmem hwants
  refine ⟨⟨h.store, h.keyed, ?_, ?_, ?_, ?_, ?_, ?_⟩, ?_⟩
  · intro other hle
    change server.nextHandle ≤ other at hle
    rw [seed_lanes, if_neg (by omega)]
    exact h.fresh other hle
  · exact nofun
  · intro other hother hopen hclosed hnotify
    rw [seed_lanes] at hclosed hnotify
    change other ∈ server.subscribers
    split at hclosed
    · rename_i heq
      rw [if_pos heq] at hnotify
      subst heq
      exact h.registered other hlt hopen (hcarries.isClosed hclosed)
        (hcarries.notifyClosed hnotify)
    · rename_i hne
      rw [if_neg hne] at hnotify
      exact h.registered other hother hopen hclosed hnotify
  · intro other
    rw [seed_lanes]
    split
    · exact ⟨(h.seededLane handle).queued, (h.seededLane handle).ceiling⟩
    · exact h.lane other
  · intro other hsubscribed insertion hmem
    change insertion ∈ server.retainedInsertions at hmem
    rw [seed_lanes] at hsubscribed ⊢
    split
    · exact hmem
    · rename_i hne
      rw [if_neg hne] at hsubscribed
      exact h.seen other hsubscribed insertion hmem
  · intro other hlive insertion hmem hwants
    change insertion ∈ server.pending ∨ _
    rcases eq_or_ne other handle with rfl | hne
    · rw [seed_lanes, if_pos rfl] at hmem hwants ⊢
      obtain ⟨entry, hentry, rfl⟩ := List.mem_map.mp hmem
      exact .inr (hoffered hlive entry hentry hwants)
    · dsimp only [Live] at hlive
      rw [seed_lanes, if_neg hne] at hlive hmem hwants ⊢
      exact h.offered other hlive insertion hmem hwants
  · intro hkept other hother hlive entry hreturned insertion hseen hhash hwants hwants'
    rcases eq_or_ne other handle with rfl | hne
    · rw [seed_lanes, if_pos rfl] at hseen hwants' ⊢
      obtain ⟨retained, hretained, rfl⟩ := List.mem_map.mp hseen
      rw [← hhash]
      exact hoffered hlive retained hretained hwants'
    · dsimp only [Live] at hlive
      rw [seed_lanes, if_neg hne] at hlive hseen hwants hwants' ⊢
      exact hkept other hother hlive entry hreturned insertion hseen hhash hwants hwants'

end Subscriptions

theorem step_keeps (h : server.Sound) (entered : Section) :
    (step hashBytes server entered).Sound ∧
      (server.PromisesKept → Careful hashBytes server entered →
        (step hashBytes server entered).PromisesKept) := by
  have hunconditional : ∀ {server' : Server},
      server'.Sound ∧ (server.PromisesKept → server'.PromisesKept) →
        server'.Sound ∧ (server.PromisesKept → Careful hashBytes server entered →
          server'.PromisesKept) := fun hkeeps => ⟨hkeeps.1, fun hkept _ => hkeeps.2 hkept⟩
  cases entered with
  | insert bytes protectedHashes =>
    dsimp only [step]
    split
    · exact ⟨h, fun hkept _ => hkept⟩
    · exact insert_keeps h bytes protectedHashes
  | offer index sawOpen => exact hunconditional (offer_keeps h index sawOpen)
  | subscribe advertised maxResourceSize sawOpen =>
    apply hunconditional
    dsimp only [step]
    split
    · exact ⟨h, id⟩
    · exact subscribe_keeps h advertised maxResourceSize sawOpen
  | seed =>
    apply hunconditional
    dsimp only [step]
    rcases hbootstrap : server.bootstrap with _ | handle
    · exact ⟨h, id⟩
    · exact seed_keeps h (h.booting handle hbootstrap)
  | popFrame handle => exact hunconditional (popFrame_keeps h handle)
  | publishTransaction full =>
    apply hunconditional
    dsimp only [step]
    split
    · exact ⟨h, id⟩
    · exact publishTransaction_keeps h full
  | dropReceiver handle =>
    apply hunconditional
    dsimp only [step]
    split
    · exact onLane_keeps h (Lane.close_carries _) (h.lane handle).close
    · exact ⟨h, id⟩
  | hangUp handle =>
    apply hunconditional
    dsimp only [step]
    split
    · refine onLane_keeps h ⟨rfl, rfl, rfl, rfl, List.Subset.refl _, id, nofun⟩ ?_
      exact ⟨(h.lane handle).queued, (h.lane handle).ceiling⟩
    · exact ⟨h, id⟩
  | closeHub =>
    have hcarries : Carries server { server with hubClosed := true } :=
      ⟨rfl, rfl, rfl, rfl, rfl, rfl, nofun, fun _ hmem _ _ _ => hmem, fun _ => .refl _⟩
    exact hunconditional ⟨h.carried hcarries h.lane, fun hkept => hkept.carried hcarries⟩
  | drainHub =>
    apply hunconditional
    dsimp only [step]
    split
    · rename_i hclosed
      exact drainHub_keeps h hclosed
    · exact ⟨h, id⟩

theorem Sound.ceilingsKept (h : server.Sound) : server.CeilingsKept :=
  fun handle _ entry hmem => (h.lane handle).ceiling entry hmem

theorem promisesKept_initial (limits : ResourceLimits) : (initial limits).PromisesKept := by
  simp [PromisesKept, initial]

theorem sound_everyState (limits : ResourceLimits) (sections : List Section) :
    EveryState (step hashBytes) Sound (initial limits) sections := by
  have hevery : EveryStep (step hashBytes) (fun _ _ => True) (initial limits) sections :=
    everyStep_of_forall (fun _ _ => trivial) _ sections
  exact hevery.everyState (fun server entered h _ => (step_keeps h entered).1)
    (sound_initial limits)

/-- No subscriber is ever given an entry above its ceiling; and in a careful run every live
subscriber was given what calls have returned of all that it saw retained or inserted and that
its client takes, in every state. -/
theorem promises_kept (hashBytes : Bytes → ResourceHash) (limits : ResourceLimits)
    (sections : List Section) :
    EveryState (step hashBytes) CeilingsKept (initial limits) sections ∧
      (EveryStep (step hashBytes) (Careful hashBytes) (initial limits) sections →
        EveryState (step hashBytes) PromisesKept (initial limits) sections) := by
  refine ⟨(sound_everyState limits sections).mono fun _ h => h.ceilingsKept, fun hcareful => ?_⟩
  have hkept := hcareful.everyState
    (P := fun server : Server => server.Sound ∧ server.PromisesKept)
    (fun server entered h hok =>
      ⟨(step_keeps h.1 entered).1, (step_keeps h.1 entered).2 h.2 hok⟩)
    ⟨sound_initial limits, promisesKept_initial limits⟩
  exact hkept.mono fun _ h => h.2

/-- The first byte stands for the digest. -/
def firstByte (bytes : Bytes) : ResourceHash := ⟨List.replicate 32 (bytes.headD 0), by simp⟩

def singleEntry : ResourceLimits := { ResourceLimits.default with maxEntries := 1 }

/-- The call that inserts makes its offer before another returns the same content, and content
that is inserted again was given to the subscriber before. -/
theorem promises_kept_offeredFirst :
    EveryState (step firstByte) PromisesKept (initial singleEntry)
      [.subscribe [] 1000 true, .seed, .insert [1, 2] ∅, .offer 0 true, .insert [1, 2] ∅,
        .insert [2] ∅, .offer 0 true, .insert [1, 2] ∅, .offer 0 true] :=
  (promises_kept firstByte singleEntry _).2 (by decide +kernel)

/-- A second call returns content that the first has inserted and not offered yet; and content
that was returned and evicted is inserted again for a subscriber that was never given it. -/
theorem promises_broken :
    ¬EveryState (step firstByte) PromisesKept (initial singleEntry)
        [.subscribe [] 1000 true, .seed, .insert [1, 2] ∅, .insert [1, 2] ∅] ∧
      ¬EveryState (step firstByte) PromisesKept (initial singleEntry)
        [.insert [1, 2] ∅, .offer 0 true, .insert [2] ∅, .offer 0 true, .subscribe [] 1000 true,
          .seed, .insert [1, 2] ∅] := by
  decide +kernel

end Server

end Srui.Sessiond.ResourceOffers

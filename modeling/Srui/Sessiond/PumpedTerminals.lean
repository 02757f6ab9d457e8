import Srui.Sessiond.TerminalPumps

/-!
When every terminal that a client is shown is pumped to it.
-/

namespace Srui.Sessiond.TerminalPumps

open Basic.Runs SemanticTree.Values Sdk.UiTransactions Sessiond.TerminalNodes

/-- What a handshake keeps among so many spawns: its client is shown streams that were spawned,
before the handshake attached once it has attached; and it has a subscription, one for each node,
to every live stream spawned by then. -/
structure Attached (s : PumpedSession) (handshake : Handshake) : Prop where
  spawned : ∀ stream ∈ handshake.coming, stream.serial ≤ s.spawns
  early : ∀ attach ∈ handshake.attached, ∀ stream ∈ handshake.coming,
    stream.serial ≤ attach.spawned
  past : ∀ attach ∈ handshake.attached, attach.spawned ≤ s.spawns
  covers : ∀ attach ∈ handshake.attached, ∀ nodeId ∈ s.terminals.streams,
    s.spawnOf nodeId ≤ attach.spawned → ⟨nodeId, s.spawnOf nodeId⟩ ∈ attach.live
  distinct : ∀ attach ∈ handshake.attached, (attach.live.map (·.nodeId)).Nodup

structure Sound (s : PumpedSession) : Prop where
  nodup : s.terminals.streams.Nodup
  spawnOf_le : ∀ nodeId, s.spawnOf nodeId ≤ s.spawns
  callSpawns_le : ∀ call, s.callSpawns call ≤ s.spawns
  created : ∀ stream ∈ s.created, stream.serial ≤ s.spawns
  attached : ∀ handshake ∈ s.handshakes, Attached s handshake

theorem Attached.beside {s : PumpedSession} {handshake : Handshake} (h : Attached s handshake)
    (handshakes : List Handshake) : Attached { s with handshakes } handshake :=
  ⟨h.spawned, h.early, h.past, h.covers, h.distinct⟩

theorem filter_eq_singleton {live : List TerminalStream} (hdistinct : (live.map (·.nodeId)).Nodup)
    {stream : TerminalStream} (hmem : stream ∈ live) :
    live.filter (fun subscribed => subscribed.nodeId = stream.nodeId) = [stream] := by
  induction live with
  | nil => simp at hmem
  | cons first rest ih =>
    obtain ⟨hfirst, hrest⟩ := List.nodup_cons.mp hdistinct
    rcases List.mem_cons.mp hmem with rfl | hmem
    · rw [List.filter_cons_of_pos (by simp), List.filter_eq_nil_iff.mpr]
      intro other hother
      rw [decide_eq_true_eq]
      intro hsame
      exact hfirst (List.mem_map.mpr ⟨other, hother, hsame⟩)
    · rw [List.filter_cons_of_neg, ih hrest hmem]
      rw [decide_eq_true_eq]
      intro hsame
      exact hfirst (List.mem_map.mpr ⟨stream, hmem, hsame.symm⟩)

namespace Sound

variable {s : PumpedSession}

theorem initial (capabilities : ServerCapabilities) (journalCapacity : Nat) :
    Sound (.initial capabilities journalCapacity) where
  nodup := List.nodup_nil
  spawnOf_le := fun _ => Nat.le_refl _
  callSpawns_le := fun _ => Nat.le_refl _
  created := by simp [PumpedSession.initial]
  attached := by simp [PumpedSession.initial]

theorem pumped (h : Sound s) : s.Pumped := by
  intro handshake hmem attach hattach stream hshown hlive
  have hattached := h.attached handshake hmem
  have hcoming : stream ∈ handshake.coming := by
    unfold Handshake.coming
    rw [List.mem_append, List.mem_append]
    rcases List.mem_append.mp hshown with hcatchUp | hpopped
    · exact .inl (.inl hcatchUp)
    · exact .inr hpopped
  have hearly := hattached.early attach hattach stream hcoming
  have hcovered := hattached.covers attach hattach stream.nodeId hlive.1 (by rwa [hlive.2])
  rw [hlive.2] at hcovered
  exact filter_eq_singleton (hattached.distinct attach hattach) hcovered

theorem narrow (h : Sound s) {terminals : TerminalSession}
    (hstreams : List.Sublist terminals.streams s.terminals.streams) :
    Sound { s with terminals } where
  nodup := h.nodup.sublist hstreams
  spawnOf_le := h.spawnOf_le
  callSpawns_le := h.callSpawns_le
  created := h.created
  attached := by
    intro handshake hmem
    have hbefore := h.attached handshake hmem
    refine ⟨hbefore.spawned, hbefore.early, hbefore.past, ?_, hbefore.distinct⟩
    intro attach hattach nodeId hlive
    exact hbefore.covers attach hattach nodeId (hstreams.subset hlive)

theorem recordSpawn (h : Sound s) {terminals : TerminalSession} {call : Nat} {nodeId : NodeId}
    (hfresh : nodeId ∉ s.terminals.streams)
    (hstreams : terminals.streams = s.terminals.streams ++ [nodeId]) :
    Sound (PumpedSession.recordSpawn { s with terminals } call nodeId) where
  nodup := by
    change terminals.streams.Nodup
    rw [hstreams, List.nodup_append_comm, List.singleton_append, List.nodup_cons]
    exact ⟨hfresh, h.nodup⟩
  spawnOf_le := by
    intro other
    change Function.update s.spawnOf nodeId (s.spawns + 1) other ≤ s.spawns + 1
    rw [Function.update_apply]
    split
    · exact Nat.le_refl _
    · exact (h.spawnOf_le other).trans (Nat.le_succ _)
  callSpawns_le := by
    intro other
    change Function.update s.callSpawns call (s.spawns + 1) other ≤ s.spawns + 1
    rw [Function.update_apply]
    split
    · exact Nat.le_refl _
    · exact (h.callSpawns_le other).trans (Nat.le_succ _)
  created := fun stream hmem => (h.created stream hmem).trans (Nat.le_succ _)
  attached := by
    intro handshake hmem
    have hbefore := h.attached handshake hmem
    refine ⟨fun stream hcoming => (hbefore.spawned stream hcoming).trans (Nat.le_succ _),
      hbefore.early, fun attach hattach => (hbefore.past attach hattach).trans (Nat.le_succ _),
      ?_, hbefore.distinct⟩
    intro attach hattach other hlive hearly
    change Function.update s.spawnOf nodeId (s.spawns + 1) other ≤ attach.spawned at hearly
    change ⟨other, Function.update s.spawnOf nodeId (s.spawns + 1) other⟩ ∈ attach.live
    rcases eq_or_ne other nodeId with rfl | hother
    · have hpast := hbefore.past attach hattach
      rw [Function.update_self] at hearly
      omega
    · rw [Function.update_of_ne hother] at hearly ⊢
      refine hbefore.covers attach hattach other ?_ hearly
      change other ∈ terminals.streams at hlive
      rw [hstreams, List.mem_append, List.mem_singleton] at hlive
      exact hlive.resolve_right hother

theorem mem_coming_publish {handshake : Handshake} {stream other : TerminalStream}
    (hmem : other ∈ (handshake.publish stream).coming) :
    other ∈ handshake.coming ∨ other = stream ∧ handshake.isOpen = true := by
  unfold Handshake.publish at hmem
  split at hmem
  · rename_i hopen
    unfold Handshake.coming at hmem ⊢
    simp only [List.mem_append, List.mem_singleton] at hmem ⊢
    tauto
  · exact .inl hmem

theorem publish_attached (handshake : Handshake) (stream : TerminalStream) :
    (handshake.publish stream).attached = handshake.attached := by
  unfold Handshake.publish
  split <;> rfl

theorem recordCommit (h : Sound s) {call : Nat} {nodeId : NodeId}
    (hearly : ∀ handshake ∈ s.handshakes, handshake.isOpen = true →
      ∀ attach ∈ handshake.attached, s.callSpawns call ≤ attach.spawned) :
    Sound (s.recordCommit call nodeId) where
  nodup := h.nodup
  spawnOf_le := h.spawnOf_le
  callSpawns_le := h.callSpawns_le
  created := by
    intro stream hmem
    rcases List.mem_append.mp hmem with hmem | hmem
    · exact h.created stream hmem
    · rw [List.mem_singleton.mp hmem]
      exact h.callSpawns_le call
  attached := by
    intro published hmem
    obtain ⟨handshake, hhandshake, rfl⟩ := List.mem_map.mp hmem
    have hbefore := h.attached handshake hhandshake
    constructor
    · intro stream hcoming
      rcases mem_coming_publish hcoming with hcoming | ⟨rfl, -⟩
      · exact hbefore.spawned stream hcoming
      · exact h.callSpawns_le call
    · intro attach hattach stream hcoming
      rw [publish_attached] at hattach
      rcases mem_coming_publish hcoming with hcoming | ⟨rfl, hopen⟩
      · exact hbefore.early attach hattach stream hcoming
      · exact hearly handshake hhandshake hopen attach hattach
    · rw [publish_attached]
      exact hbefore.past
    · rw [publish_attached]
      exact hbefore.covers
    · rw [publish_attached]
      exact hbefore.distinct

theorem onHandshake (h : Sound s) {index : Nat} {f : Handshake → Handshake}
    (hf : ∀ handshake, Attached s handshake → Attached s (f handshake)) :
    Sound (s.onHandshake index f) where
  nodup := h.nodup
  spawnOf_le := h.spawnOf_le
  callSpawns_le := h.callSpawns_le
  created := h.created
  attached := by
    intro handshake hmem
    obtain ⟨place, hplace⟩ := List.mem_iff_getElem?.mp hmem
    change (s.handshakes.modify index f)[place]? = some handshake at hplace
    rw [List.getElem?_modify] at hplace
    obtain ⟨before, hbefore, rfl⟩ := Option.map_eq_some_iff.mp hplace
    have hattached : Attached s before := h.attached before (List.mem_of_getElem? hbefore)
    split
    · exact (hf before hattached).beside _
    · exact hattached.beside _

end Sound

namespace Attached

variable {s : PumpedSession} {handshake : Handshake}

theorem shrink (h : Attached s handshake) {other : Handshake}
    (hattached : other.attached = handshake.attached)
    (hcoming : other.coming ⊆ handshake.coming) : Attached s other where
  spawned := fun stream hmem => h.spawned stream (hcoming hmem)
  early := by
    rw [hattached]
    exact fun attach hattach stream hmem => h.early attach hattach stream (hcoming hmem)
  past := by
    rw [hattached]
    exact h.past
  covers := by
    rw [hattached]
    exact h.covers
  distinct := by
    rw [hattached]
    exact h.distinct

theorem pop (h : Attached s handshake) (creations : Nat) :
    Attached s (handshake.pop creations) := by
  unfold Handshake.pop
  split
  · refine h.shrink rfl fun stream hmem => ?_
    unfold Handshake.coming at hmem ⊢
    simp only [List.mem_append] at hmem ⊢
    rcases hmem with (hcatchUp | hqueued) | hpopped | htaken
    · exact .inl (.inl hcatchUp)
    · exact .inl (.inr (List.mem_of_mem_drop hqueued))
    · exact .inr hpopped
    · exact .inl (.inr (List.mem_of_mem_take htaken))
  · exact h

theorem endSubscription (h : Attached s handshake) (discards : Bool) :
    Attached s (handshake.endSubscription discards) := by
  refine h.shrink rfl fun stream hmem => ?_
  unfold Handshake.coming Handshake.endSubscription at hmem
  unfold Handshake.coming
  simp only [List.mem_append] at hmem ⊢
  rcases hmem with (hcatchUp | hqueued) | hpopped
  · exact .inl (.inl hcatchUp)
  · cases discards with
    | true => cases hqueued
    | false => exact .inl (.inr hqueued)
  · exact .inr hpopped

theorem attachTerminals (h : Attached s handshake) (hnodup : s.terminals.streams.Nodup) :
    Attached s (s.attachTerminals handshake) := by
  unfold PumpedSession.attachTerminals
  split
  · rename_i hnone
    refine ⟨h.spawned, ?_, ?_, ?_, ?_⟩
    · rintro attach ⟨⟩ stream hmem
      exact h.spawned stream hmem
    · rintro attach ⟨⟩
      exact Nat.le_refl _
    · rintro attach ⟨⟩ nodeId hlive -
      exact List.mem_map.mpr ⟨nodeId, hlive, rfl⟩
    · rintro attach ⟨⟩
      unfold PumpedSession.subscribeAll
      rw [List.map_map]
      exact (List.map_id s.terminals.streams).symm ▸ hnodup
  · exact h

end Attached

theorem Sound.step {s : PumpedSession} (h : Sound s) (i : PumpSection)
    (hcareful : s.Careful i) : Sound (s.step i) := by
  cases i with
  | terminals entered =>
    change Sound (s.enter entered)
    unfold PumpedSession.enter
    dsimp only
    rcases hspawned : spawnedBy s.terminals entered with _ | ⟨call, nodeId⟩
    · have hnarrow := h.narrow (step_streams hspawned)
      rcases hcommitted : committedBy s.terminals entered with _ | ⟨call, nodeId⟩
      · exact hnarrow
      · exact hnarrow.recordCommit fun handshake hmem hopen attach hattach =>
          hcareful (call, nodeId) hcommitted handshake hmem hopen attach hattach
    · obtain ⟨hfresh, hstreams⟩ := step_spawnedBy hspawned
      exact h.recordSpawn hfresh hstreams
  | subscribe connection =>
    change Sound (s.subscribe connection)
    unfold PumpedSession.subscribe
    split
    · have hnarrow := h.narrow (step_streams (i := .finishHandshake connection) rfl)
      refine ⟨hnarrow.nodup, h.spawnOf_le, h.callSpawns_le, h.created, ?_⟩
      intro handshake hmem
      rcases List.mem_append.mp hmem with hmem | hmem
      · exact (hnarrow.attached handshake hmem).beside _
      · obtain rfl := List.mem_singleton.mp hmem
        refine ⟨?_, nofun, nofun, nofun, nofun⟩
        intro stream hcoming
        unfold Handshake.coming at hcoming
        rw [List.append_nil, List.append_nil] at hcoming
        exact h.created stream (List.mem_of_mem_filter hcoming)
    · exact h
  | attachTerminals handshake =>
    exact h.onHandshake fun _ hattached => hattached.attachTerminals h.nodup
  | pop handshake creations => exact h.onHandshake fun _ hattached => hattached.pop creations
  | endSubscription handshake discards =>
    exact h.onHandshake fun _ hattached => hattached.endSubscription discards

/-- In a run in which no call commits a node whose stream it spawned after an open handshake had
attached, every terminal that a client is shown is pumped to it, in every state. -/
theorem shown_terminals_pumped (capabilities : ServerCapabilities) (journalCapacity : Nat)
    (sections : List PumpSection)
    (hcareful : EveryStep PumpedSession.step PumpedSession.Careful
      (.initial capabilities journalCapacity) sections) :
    EveryState PumpedSession.step PumpedSession.Pumped
      (.initial capabilities journalCapacity) sections := by
  have hsound := hcareful.everyState (fun s i (h : Sound s) hok => h.step i hok)
    (Sound.initial capabilities journalCapacity)
  exact hsound.mono fun _ h => h.pumped

def noCapabilities : ServerCapabilities := ⟨∅, ∅⟩

def surfaceClosure : UiClosure Unit :=
  .call (.createNode 1 ⟨0, 1⟩ none none []) fun _ _ => .finish (.ok ())

/-- The stream is there when the handshake attaches, and its node is committed afterwards. -/
theorem spawned_before_attach :
    EveryState PumpedSession.step PumpedSession.Pumped (.initial noCapabilities 8)
      [.terminals (.transaction fun _ _ => surfaceClosure), .terminals (.prepare 0 7 1),
        .terminals .attach, .terminals (.readTable 0), .terminals (.spawn 0 false), .subscribe 0,
        .attachTerminals 0, .terminals (.commit 0 false), .pop 0 1] :=
  shown_terminals_pumped noCapabilities 8 _ (by decide +kernel)

/-- The handshake subscribes and attaches while the call has prepared the type only. -/
theorem spawned_after_attach :
    ¬EveryState PumpedSession.step PumpedSession.Pumped (.initial noCapabilities 8)
      [.terminals (.transaction fun _ _ => surfaceClosure), .terminals (.prepare 0 7 1),
        .terminals .attach, .terminals (.readTable 0), .subscribe 0, .attachTerminals 0,
        .terminals (.spawn 0 false), .terminals (.commit 0 false), .pop 0 1] := by
  decide +kernel

end Srui.Sessiond.TerminalPumps

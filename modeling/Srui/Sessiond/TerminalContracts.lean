import Srui.Sessiond.TerminalSteps

/-!
The type contract of terminal nodes: which interleavings keep the terminal profile required and
mapped to the namespace of every terminal node.
-/

namespace Srui.Sessiond.TerminalContracts

open Basic.Runs SemanticTree.Values SemanticTree.Stores SemanticTree.NodeForest
open SemanticTree.NodeTypes Sdk.UiTransactions Sessiond.Sessions Sessiond.TerminalNodes
open Sessiond.TerminalNodes.TerminalSession

variable {s : TerminalSession}

variable {namespaceId call : Nat}

theorem lowestUnused_fresh {used : List Nat} {candidate left : Nat}
    (h : lowestUnused used candidate left = .ok namespaceId) : namespaceId ∉ used := by
  induction left generalizing candidate with
  | zero => cases h
  | succ left ih =>
    rw [lowestUnused] at h
    split_ifs at h with hused
    · exact ih h
    · rw [← Except.ok.inj h]
      exact hused

variable {uri : String} {table : List ExtensionNamespaceMapping}

theorem namespaceOf_eq_none :
    namespaceOf table uri = none ↔ uri ∉ table.map (·.extensionUri) := by
  unfold namespaceOf
  rw [Option.map_eq_none_iff, List.find?_eq_none, List.mem_map]
  constructor
  · rintro h ⟨mapping, hmem, rfl⟩
    exact h mapping hmem (decide_eq_true rfl)
  · intro h mapping hmem hsame
    exact h ⟨mapping, hmem, of_decide_eq_true hsame⟩

theorem mem_of_namespaceOf (h : namespaceOf table uri = some namespaceId) :
    (⟨uri, namespaceId⟩ : ExtensionNamespaceMapping) ∈ table := by
  obtain ⟨mapping, hfound, rfl⟩ := Option.map_eq_some_iff.mp h
  have huri : mapping.extensionUri = uri := by simpa using List.find?_some hfound
  rw [← huri]
  exact List.mem_of_find?_eq_some hfound

theorem namespaceOf_of_mem (huris : (table.map (·.extensionUri)).Nodup)
    (h : (⟨uri, namespaceId⟩ : ExtensionNamespaceMapping) ∈ table) :
    namespaceOf table uri = some namespaceId := by
  induction table with
  | nil => exact absurd h List.not_mem_nil
  | cons mapping rest ih =>
    rw [List.map_cons, List.nodup_cons] at huris
    unfold namespaceOf
    rw [List.find?_cons]
    rcases List.mem_cons.mp h with rfl | h
    · rw [decide_eq_true rfl]
      rfl
    · have hne : mapping.extensionUri ≠ uri := by
        rintro rfl
        exact huris.1 (List.mem_map.mpr ⟨_, h, rfl⟩)
      rw [decide_eq_false hne]
      exact ih huris.2 h

theorem rollbackTerminalType_sublist (rollback : TerminalTypeRollback) :
    (s.rollbackTerminalType rollback).extensionNamespaces.Sublist s.extensionNamespaces := by
  unfold rollbackTerminalType
  split
  · exact List.Sublist.refl _
  · dsimp only
    split
    · exact List.filter_sublist
    · exact List.Sublist.refl _

structure Tabled (s : TerminalSession) : Prop where
  ids : (s.extensionNamespaces.map (·.namespaceId)).Nodup
  uris : (s.extensionNamespaces.map (·.extensionUri)).Nodup
  handed : ∀ mapping ∈ s.handed, mapping ∈ s.extensionNamespaces ∧ s.hasNegotiated = true
  reading : ∀ table, some table ∈ s.connections → ∀ mapping ∈ table,
    mapping ∈ s.extensionNamespaces

namespace Tabled

theorem push (h : Tabled s) {uri : String} {createdNamespace : Option Nat}
    (hfresh : ∀ fresh, createdNamespace = some fresh →
      namespaceOf s.extensionNamespaces uri = none ∧
        nextExtensionNamespace s.extensionNamespaces = .ok fresh)
    (capabilities : ServerCapabilities) :
    Tabled { s with
      capabilities := capabilities
      extensionNamespaces := s.extensionNamespaces ++
        createdNamespace.toList.map fun namespaceId => ⟨uri, namespaceId⟩ } := by
  have hkeeps (mapping : ExtensionNamespaceMapping) (hmem : mapping ∈ s.extensionNamespaces) :
      mapping ∈ s.extensionNamespaces ++
        createdNamespace.toList.map fun namespaceId => ⟨uri, namespaceId⟩ :=
    List.mem_append_left _ hmem
  refine ⟨?_, ?_, fun mapping hmem => ⟨hkeeps _ (h.handed mapping hmem).1,
    (h.handed mapping hmem).2⟩, fun table htable mapping hmem =>
      hkeeps _ (h.reading table htable mapping hmem)⟩
  · change ((s.extensionNamespaces ++ _).map _).Nodup
    rw [List.map_append, List.nodup_append]
    cases createdNamespace with
    | none => exact ⟨h.ids, List.nodup_nil, fun _ _ _ hnone => absurd hnone List.not_mem_nil⟩
    | some fresh =>
      refine ⟨h.ids, List.nodup_singleton _, ?_⟩
      rintro id hid other hother rfl
      rw [List.mem_singleton.mp hother] at hid
      exact lowestUnused_fresh (hfresh fresh rfl).2 hid
  · change ((s.extensionNamespaces ++ _).map _).Nodup
    rw [List.map_append, List.nodup_append]
    cases createdNamespace with
    | none => exact ⟨h.uris, List.nodup_nil, fun _ _ _ hnone => absurd hnone List.not_mem_nil⟩
    | some fresh =>
      refine ⟨h.uris, List.nodup_singleton _, ?_⟩
      rintro id hid other hother rfl
      rw [List.mem_singleton.mp hother] at hid
      exact namespaceOf_eq_none.mp (hfresh fresh rfl).1 hid

theorem rollback (h : Tabled s) (rollback : TerminalTypeRollback) :
    Tabled (s.rollbackTerminalType rollback) := by
  have hsublist := rollbackTerminalType_sublist (s := s) rollback
  unfold rollbackTerminalType at hsublist ⊢
  by_cases hguard : 0 < s.attachedConnections ∨ s.hasNegotiated ∨ s.streams ≠ []
  · rw [if_pos hguard]
    exact h
  · rw [if_neg hguard] at hsublist ⊢
    obtain ⟨hattached, hrest⟩ := not_or.mp hguard
    obtain ⟨hnegotiated, -⟩ := not_or.mp hrest
    have hconnections : s.connections = [] :=
      List.eq_nil_of_length_eq_zero (Nat.eq_zero_of_not_pos hattached)
    refine ⟨h.ids.sublist (hsublist.map _), h.uris.sublist (hsublist.map _), ?_, ?_⟩
    · intro mapping hmem
      exact absurd (h.handed mapping hmem).2 hnegotiated
    · intro table htable
      change some table ∈ s.connections at htable
      rw [hconnections] at htable
      exact absurd htable List.not_mem_nil

end Tabled

structure Mapped (s : TerminalSession) (namespaceId : Nat) : Prop where
  table : (⟨terminalProfileUri, namespaceId⟩ : ExtensionNamespaceMapping) ∈ s.extensionNamespaces
  required : Profile.terminalV1 ∈ s.capabilities.required
  notOptional : Profile.terminalV1 ∉ s.capabilities.optional

/-- What a careful run keeps: the type of each node created, of each call that may still commit
and of the live streams. -/
structure Contract (s : TerminalSession) : Prop where
  forest : StoreForest s.session.store
  tabled : Tabled s
  created : ∀ x ∈ s.created, x ∈ s.session.store.usedIds
  nodes : ∀ x ∈ s.created, ∀ typeRef, typeOf s.session.store x = some typeRef →
    Mapped s typeRef.namespaceId
  calls : ∀ k c, s.calls k = some c → c.stage ≠ .failed → Mapped s c.typeRef.namespaceId
  streams : s.streams ≠ [] → ∃ namespaceId, Mapped s namespaceId

namespace Contract

theorem keeps {s' : TerminalSession} (h : Contract s) (htabled : Tabled s')
    (hsession : s'.session = s.session) (hcreated : s'.created = s.created)
    (hmapped : ∀ namespaceId, Mapped s namespaceId → Mapped s' namespaceId)
    (hcalls : ∀ k c, s'.calls k = some c → c.stage ≠ .failed →
      ∃ d, s.calls k = some d ∧ d.stage ≠ .failed ∧ d.typeRef = c.typeRef)
    (hstreams : s'.streams ≠ [] → s.streams ≠ []) : Contract s' := by
  refine ⟨?_, htabled, ?_, ?_, ?_, ?_⟩
  · rw [hsession]
    exact h.forest
  · rw [hcreated, hsession]
    exact h.created
  · rw [hcreated, hsession]
    exact fun x hx typeRef htype => hmapped _ (h.nodes x hx typeRef htype)
  · intro k c hcall hstage
    obtain ⟨d, hd, hopen, htype⟩ := hcalls k c hcall hstage
    rw [← htype]
    exact hmapped _ (h.calls k d hd hopen)
  · intro hne
    obtain ⟨namespaceId, hns⟩ := h.streams (hstreams hne)
    exact ⟨namespaceId, hmapped _ hns⟩

/-- The tables stay, and what is created, may still commit or runs is mapped there. -/
theorem updated (h : Contract s) {session : Session} {created streams closings : List NodeId}
    {calls : Nat → Option CreateCall} {shutdowns : Nat} {terminalState : Bool}
    (hforest : StoreForest session.store) (hcreated : ∀ x ∈ created, x ∈ session.store.usedIds)
    (hnodes : ∀ x ∈ created, ∀ typeRef, typeOf session.store x = some typeRef →
      Mapped s typeRef.namespaceId)
    (hcalls : ∀ k c, calls k = some c → c.stage ≠ .failed → Mapped s c.typeRef.namespaceId)
    (hstreams : streams ≠ [] → ∃ namespaceId, Mapped s namespaceId) :
    Contract { s with
      session := session
      created := created
      streams := streams
      closings := closings
      calls := calls
      shutdowns := shutdowns
      terminalState := terminalState } where
  forest := hforest
  tabled := ⟨h.tabled.ids, h.tabled.uris, h.tabled.handed, h.tabled.reading⟩
  created := hcreated
  nodes x hx typeRef htype := by
    obtain ⟨htable, hrequired, hoptional⟩ := hnodes x hx typeRef htype
    exact ⟨htable, hrequired, hoptional⟩
  calls k c hcall hstage := by
    obtain ⟨htable, hrequired, hoptional⟩ := hcalls k c hcall hstage
    exact ⟨htable, hrequired, hoptional⟩
  streams hne := by
    obtain ⟨namespaceId, htable, hrequired, hoptional⟩ := hstreams hne
    exact ⟨namespaceId, htable, hrequired, hoptional⟩

theorem calls_update (h : Contract s) {call : Nat} {state : Option CreateCall}
    (hstate : ∀ c, state = some c → c.stage ≠ .failed → Mapped s c.typeRef.namespaceId)
    (k : Nat) (c : CreateCall) (hcall : Function.update s.calls call state k = some c)
    (hstage : c.stage ≠ .failed) : Mapped s c.typeRef.namespaceId := by
  by_cases hsame : k = call
  · subst hsame
    rw [Function.update_self] at hcall
    exact hstate c hcall hstage
  · rw [Function.update_of_ne hsame] at hcall
    exact h.calls k c hcall hstage

theorem setCall (h : Contract s) {call : Nat} {state : Option CreateCall}
    (hstate : ∀ c, state = some c → c.stage ≠ .failed →
      Mapped s c.typeRef.namespaceId) : Contract (s.setCall call state) :=
  h.updated h.forest h.created h.nodes (h.calls_update hstate) h.streams

theorem withTerminalType_mapped {createdNamespace : Option Nat} {namespaceId : Nat}
    (hallocates : s.Allocates namespaceId createdNamespace) :
    Mapped (s.withTerminalType createdNamespace) namespaceId := by
  refine ⟨?_, Finset.mem_insert_self _ _, Finset.notMem_erase _ _⟩
  cases createdNamespace with
  | none => exact List.mem_append_left _ (mem_of_namespaceOf hallocates)
  | some fresh =>
    obtain ⟨rfl, -, -⟩ := hallocates
    exact List.mem_append_right _ List.mem_cons_self

theorem withTerminalType (h : Contract s) {createdNamespace : Option Nat} {namespaceId : Nat}
    (hallocates : s.Allocates namespaceId createdNamespace) :
    Contract (s.withTerminalType createdNamespace) := by
  refine h.keeps (h.tabled.push ?_ _) rfl rfl ?_ (fun k c hcall hstage => ⟨c, hcall, hstage, rfl⟩)
    id
  · rintro fresh rfl
    exact hallocates.2
  · intro other hmapped
    exact ⟨List.mem_append_left _ hmapped.table, Finset.mem_insert_self _ _,
      Finset.notMem_erase _ _⟩

theorem beginCall (h : Contract s) (call : Nat) (nodeId parent : NodeId) :
    Contract (s.beginCall call nodeId parent) := by
  rcases s.beginCall_cases call nodeId parent with
    heq | ⟨typeRef, rollback, prepared, hcall, hprepared, heq⟩
  · rw [heq]
    exact h
  · obtain ⟨-, -, hallocates, -, -, rfl⟩ := prepareTerminalType_ok hprepared
    rw [heq]
    apply (h.withTerminalType hallocates).setCall
    rintro c ⟨⟩ -
    exact withTerminalType_mapped hallocates

theorem spawnCall (h : Contract s) (call : Nat) (fails : Bool) :
    Contract (s.spawnCall call fails) := by
  rcases s.spawnCall_cases call fails with heq | ⟨c, hcall, hstage, heq | ⟨-, heq⟩⟩
  · rw [heq]
    exact h
  · rw [heq]
    apply h.setCall
    rintro d ⟨⟩ hopen
    exact absurd rfl hopen
  · have hmapped : Mapped s c.typeRef.namespaceId := by
      refine h.calls call c hcall ?_
      rw [hstage]
      decide
    rw [heq]
    refine h.updated h.forest h.created h.nodes (h.calls_update ?_) fun _ => ⟨_, hmapped⟩
    rintro d ⟨⟩ -
    exact hmapped

theorem commits (h : Contract s) {session' : Session} {deletesNodes : Bool}
    (hnodes : NodesStep s.session.store session'.store deletesNodes) (closings : List NodeId) :
    Contract { s with session := session', closings := closings } := by
  refine h.updated hnodes.outlives.forest
    (fun x hx => hnodes.outlives.used x (h.created x hx)) ?_ h.calls h.streams
  intro x hx typeRef htype
  refine h.nodes x hx typeRef ?_
  rcases hnodes.types x (h.created x hx) with hkept | ⟨-, hgone⟩
  · rw [← hkept]
    exact htype
  · rw [htype] at hgone
    cases hgone

theorem commitCall (h : Contract s) (call : Nat) (fails : Bool) :
    Contract (s.commitCall call fails) := by
  rcases s.commitCall_cases h.forest call fails with
    heq | ⟨c, hcall, hstage, heq | ⟨session', hcreates, heq⟩⟩
  · rw [heq]
    exact h
  · rw [heq]
    apply h.setCall
    rintro d ⟨⟩ -
    refine h.calls call c hcall ?_
    rw [hstage]
    decide
  · have hmapped : Mapped s c.typeRef.namespaceId := by
      refine h.calls call c hcall ?_
      rw [hstage]
      decide
    have hcommitted := h.commits hcreates.nodes s.closings
    rw [heq]
    refine h.updated hcommitted.forest ?_ ?_ (h.calls_update ?_) h.streams
    · intro x hx
      rcases List.mem_cons.mp hx with rfl | hx
      · exact hcreates.used
      · exact hcommitted.created x hx
    · intro x hx typeRef htype
      rcases List.mem_cons.mp hx with rfl | hx
      · obtain rfl := Option.some.inj (hcreates.typed.symm.trans htype)
        exact hmapped
      · obtain ⟨htable, hrequired, hoptional⟩ := hcommitted.nodes x hx typeRef htype
        exact ⟨htable, hrequired, hoptional⟩
    · rintro d ⟨⟩

theorem dropsStreams (h : Contract s) {streams closings : List NodeId} {shutdowns : Nat}
    {terminalState : Bool} (hstreams : streams ≠ [] → s.streams ≠ []) :
    Contract { s with
      streams := streams
      closings := closings
      shutdowns := shutdowns
      terminalState := terminalState } :=
  h.updated h.forest h.created h.nodes h.calls fun hne => h.streams (hstreams hne)

theorem filter_ne_nil {streams : List NodeId} {p : NodeId → Bool} (h : streams.filter p ≠ []) :
    streams ≠ [] := by
  rintro rfl
  exact h rfl

theorem closeCall (h : Contract s) (call : Nat) : Contract (s.closeCall call) := by
  rcases s.closeCall_cases call with heq | ⟨c, hcall, hstage, heq⟩
  · rw [heq]
    exact h
  · have hclosed : Contract (s.close c.nodeId) := h.dropsStreams filter_ne_nil
    rw [heq]
    apply hclosed.setCall
    rintro d ⟨⟩ hopen
    exact absurd rfl hopen

end Contract

def TakesBack (s : TerminalSession) (rollback : TerminalTypeRollback) : Prop :=
  (s.connections = [] ∧ s.hasNegotiated = false ∧ s.streams = []) ∧
    (rollback.wasRequired = false ∨ rollback.wasOptional = true ∨
      rollback.createdNamespace ≠ none)

/-- No rollback takes anything back while another call may still commit or a node that was created
is live. -/
def Careful (s : TerminalSession) : Section → Prop
  | .rollback call => ∀ c, s.calls call = some c → c.stage = .failed → TakesBack s c.rollback →
      (∀ k d, k ≠ call → s.calls k = some d → d.stage = .failed) ∧
        ∀ x ∈ s.created, ¬Live s.session.store x
  | _ => True

variable {rollback : TerminalTypeRollback}

theorem rollback_idle (h : ¬TakesBack s rollback) :
    s.rollbackTerminalType rollback = s := by
  unfold rollbackTerminalType
  by_cases hguard : 0 < s.attachedConnections ∨ s.hasNegotiated ∨ s.streams ≠ []
  · rw [if_pos hguard]
  · obtain ⟨hattached, hrest⟩ := not_or.mp hguard
    obtain ⟨hnegotiated, hstreams⟩ := not_or.mp hrest
    have hfree : s.connections = [] ∧ s.hasNegotiated = false ∧ s.streams = [] :=
      ⟨List.eq_nil_of_length_eq_zero (Nat.eq_zero_of_not_pos hattached),
        Bool.eq_false_iff.mpr hnegotiated, not_not.mp hstreams⟩
    have hnothing := fun htakes => h ⟨hfree, htakes⟩
    obtain ⟨hrequired, hrest⟩ := not_or.mp hnothing
    obtain ⟨hoptional, hcreated⟩ := not_or.mp hrest
    rw [if_neg hguard, if_pos (Bool.not_eq_false _ ▸ hrequired), if_neg hoptional,
      not_not.mp hcreated]

namespace Contract

theorem rollbackCall (h : Contract s) (call : Nat) (hcareful : Careful s (.rollback call)) :
    Contract (s.rollbackCall call) := by
  rcases s.rollbackCall_cases call with heq | ⟨c, hcall, hstage, heq⟩
  · rw [heq]
    exact h
  rw [heq]
  by_cases htakes : TakesBack s c.rollback
  · obtain ⟨hothers, hdead⟩ := hcareful c hcall hstage htakes
    obtain ⟨⟨hconnections, hnegotiated, hstreams⟩, -⟩ := htakes
    have htabled := h.tabled.rollback c.rollback
    rw [rollbackTerminalType_eq] at htabled ⊢
    refine ⟨h.forest, ⟨htabled.ids, htabled.uris, htabled.handed, htabled.reading⟩, h.created,
      ?_, ?_, fun hne => absurd hstreams hne⟩
    · intro x hx typeRef htype
      have hnone := typeOf_eq_none.mpr (not_live_iff.mp (hdead x hx))
      rw [show typeOf s.session.store x = some typeRef from htype] at hnone
      cases hnone
    · intro k d hd hopen
      change Function.update s.calls call none k = some d at hd
      by_cases hk : k = call
      · subst hk
        rw [Function.update_self] at hd
        cases hd
      · rw [Function.update_of_ne hk] at hd
        exact absurd (hothers k d hk hd) hopen
  · rw [rollback_idle htakes]
    apply h.setCall
    rintro d ⟨⟩

theorem registerOptional (h : Contract s) (profile : Profile) :
    Contract (s.step (.registerOptional profile)) := by
  rcases s.registerOptional_cases profile with heq | ⟨hother, createdNamespace, heq, hfresh⟩
  · rw [heq]
    exact h
  · rw [heq]
    refine h.keeps (h.tabled.push hfresh _) rfl rfl ?_
      (fun k c hcall hopen => ⟨c, hcall, hopen, rfl⟩) id
    intro namespaceId hmapped
    refine ⟨List.mem_append_left _ hmapped.table, hmapped.required, fun hmem => ?_⟩
    rcases Finset.mem_insert.mp hmem with hsame | hmem
    · exact hother hsame.symm
    · exact hmapped.notOptional hmem

theorem reads (h : Contract s) {connections : List (Option (List ExtensionNamespaceMapping))}
    (hreading : ∀ table, some table ∈ connections → ∀ mapping ∈ table,
      mapping ∈ s.extensionNamespaces) : Contract { s with connections := connections } := by
  refine h.keeps ⟨h.tabled.ids, h.tabled.uris, h.tabled.handed, hreading⟩ rfl rfl ?_
    (fun k c hcall hopen => ⟨c, hcall, hopen, rfl⟩) id
  exact fun _ hmapped => ⟨hmapped.table, hmapped.required, hmapped.notOptional⟩

theorem finishHandshake (h : Contract s) (connection : Nat) :
    Contract (s.step (.finishHandshake connection)) := by
  rcases s.finishHandshake_cases connection with heq | ⟨table, hread, heq⟩
  · rw [heq]
    exact h
  · rw [heq]
    have hmem : some table ∈ s.connections := List.mem_of_getElem? hread
    refine h.keeps ⟨h.tabled.ids, h.tabled.uris, ?_, ?_⟩ rfl rfl ?_
      (fun k c hcall hopen => ⟨c, hcall, hopen, rfl⟩) id
    · intro mapping hhanded
      rcases List.mem_append.mp hhanded with hhanded | hhanded
      · exact ⟨(h.tabled.handed mapping hhanded).1, rfl⟩
      · exact ⟨h.tabled.reading table hmem mapping hhanded, rfl⟩
    · intro other hother
      rcases List.mem_or_eq_of_mem_set hother with hother | hother
      · exact h.tabled.reading other hother
      · cases hother
    · exact fun _ hmapped => ⟨hmapped.table, hmapped.required, hmapped.notOptional⟩

theorem step (h : Contract s) (i : Section) (hcareful : Careful s i) : Contract (s.step i) := by
  cases i with
  | prepare call nodeId parent => exact h.beginCall call nodeId parent
  | spawn call fails => exact h.spawnCall call fails
  | commit call fails => exact h.commitCall call fails
  | close call => exact h.closeCall call
  | rollback call => exact h.rollbackCall call hcareful
  | registerOptional profile => exact h.registerOptional profile
  | transaction f =>
    change Contract (s.transaction f)
    rcases s.transaction_cases h.forest f with heq | ⟨session', heq, hnodes⟩
    · rw [heq]
      exact h
    · rw [heq]
      exact h.commits hnodes _
  | commitTransaction tx =>
    change Contract (s.commitTransaction tx)
    rcases s.commitTransaction_cases h.forest tx with heq | ⟨session', heq, hnodes⟩
    · rw [heq]
      exact h
    · rw [heq]
      exact h.commits hnodes _
  | closeMissing nodeId =>
    change Contract (if nodeId ∈ s.closings then _ else s)
    split_ifs
    · exact h.dropsStreams filter_ne_nil
    · exact h
  | terminateOrExpire => exact h.dropsStreams id
  | shutdown =>
    change Contract (if 0 < s.shutdowns then _ else s)
    split_ifs
    · exact h.dropsStreams fun hne => absurd rfl hne
    · exact h
  | attach =>
    change Contract (if s.terminalState then s else _)
    split_ifs
    · exact h
    · refine h.reads fun table htable => ?_
      rcases List.mem_append.mp htable with htable | htable
      · exact h.tabled.reading table htable
      · cases List.mem_singleton.mp htable
  | detach connection =>
    exact h.reads fun table htable => h.tabled.reading table (List.mem_of_mem_eraseIdx htable)
  | readTable connection =>
    refine h.reads fun table htable => ?_
    rcases List.mem_or_eq_of_mem_set htable with htable | htable
    · exact h.tabled.reading table htable
    · obtain rfl := Option.some.inj htable
      exact fun mapping hmem => hmem
  | finishHandshake connection => exact h.finishHandshake connection

theorem withConfig (capabilities : ServerCapabilities) (journalCapacity : Nat) :
    Contract (.withConfig capabilities journalCapacity) where
  forest := storeForest_empty _ _
  tabled :=
    { ids := List.nodup_singleton _
      uris := List.nodup_singleton _
      handed := fun _ hmem => absurd hmem List.not_mem_nil
      reading := fun _ htable => absurd htable List.not_mem_nil }
  created x hx := absurd hx List.not_mem_nil
  nodes x hx := absurd hx List.not_mem_nil
  calls := by rintro k c ⟨⟩
  streams hne := absurd rfl hne

end Contract

theorem required_restored {required : Finset Profile} {wasRequired : Bool}
    (h : wasRequired = true ↔ Profile.terminalV1 ∈ required) :
    (if wasRequired then insert Profile.terminalV1 required
      else (insert Profile.terminalV1 required).erase Profile.terminalV1) = required := by
  split_ifs with hwas
  · exact Finset.insert_eq_of_mem (h.mp hwas)
  · exact Finset.erase_insert fun hmem => hwas (h.mpr hmem)

theorem optional_restored {optional : Finset Profile} {wasOptional : Bool}
    (h : wasOptional = true ↔ Profile.terminalV1 ∈ optional) :
    (if wasOptional then insert Profile.terminalV1 (optional.erase Profile.terminalV1)
      else optional.erase Profile.terminalV1) = optional := by
  split_ifs with hwas
  · exact Finset.insert_erase (h.mp hwas)
  · exact Finset.erase_eq_of_notMem fun hmem => hwas (h.mpr hmem)

theorem table_restored {fresh : Nat}
    (h : fresh ∉ table.map (·.namespaceId)) :
    (table ++ [(⟨uri, fresh⟩ : ExtensionNamespaceMapping)]).filter
      (fun mapping => mapping.namespaceId ≠ fresh) = table := by
  rw [List.filter_append, List.filter_eq_self.mpr]
  · simp
  · intro mapping hmem
    refine decide_eq_true fun hsame => ?_
    exact h (List.mem_map.mpr ⟨mapping, hmem, hsame⟩)

/-- The capabilities and the mappings are the ones of before. -/
def Restored (s t : TerminalSession) : Prop :=
  t.capabilities = s.capabilities ∧ t.extensionNamespaces = s.extensionNamespaces

theorem Contract.restores (h : Contract s)
    (hconnections : s.connections = [])
    (hallocates : s.Allocates namespaceId rollback.createdNamespace)
    (hrequired : rollback.wasRequired = true ↔ Profile.terminalV1 ∈ s.capabilities.required)
    (hoptional : rollback.wasOptional = true ↔ Profile.terminalV1 ∈ s.capabilities.optional)
    {t : TerminalSession} (hcapabilities : t.capabilities =
      (s.withTerminalType rollback.createdNamespace).capabilities)
    (htable : t.extensionNamespaces =
      (s.withTerminalType rollback.createdNamespace).extensionNamespaces)
    (hconnections' : t.connections = s.connections) (hnegotiated' : t.hasNegotiated = false)
    (hstreams : t.streams = s.streams) : Restored s (t.rollbackTerminalType rollback) := by
  by_cases hlive : s.streams = []
  · have hguard : ¬(0 < t.attachedConnections ∨ t.hasNegotiated = true ∨ t.streams ≠ []) := by
      unfold attachedConnections
      rw [hconnections', hconnections, hnegotiated', hstreams, hlive]
      simp
    unfold Restored rollbackTerminalType
    rw [if_neg hguard, hcapabilities, htable]
    constructor
    · change ServerCapabilities.mk
        (if rollback.wasRequired then insert Profile.terminalV1 s.capabilities.required
          else (insert Profile.terminalV1 s.capabilities.required).erase Profile.terminalV1)
        (if rollback.wasOptional then
            insert Profile.terminalV1 (s.capabilities.optional.erase Profile.terminalV1)
          else s.capabilities.optional.erase Profile.terminalV1) = s.capabilities
      rw [required_restored hrequired, optional_restored hoptional]
    · cases hcreated : rollback.createdNamespace with
      | none => exact List.append_nil _
      | some fresh =>
        rw [hcreated] at hallocates
        exact table_restored (lowestUnused_fresh hallocates.2.2)
  · -- other streams are live: their mapping was there, and nothing was prepared
    obtain ⟨mappedId, hmapped⟩ := h.streams hlive
    have hguard : 0 < t.attachedConnections ∨ t.hasNegotiated = true ∨ t.streams ≠ [] := by
      rw [hstreams]
      exact .inr (.inr hlive)
    have hfound : rollback.createdNamespace = none := by
      cases hcreated : rollback.createdNamespace with
      | none => rfl
      | some fresh =>
        rw [hcreated] at hallocates
        have hthere := namespaceOf_of_mem h.tabled.uris hmapped.table
        rw [hallocates.2.1] at hthere
        cases hthere
    unfold Restored rollbackTerminalType
    rw [if_pos hguard, hcapabilities, htable, hfound]
    constructor
    · change ServerCapabilities.mk (insert Profile.terminalV1 s.capabilities.required)
        (s.capabilities.optional.erase Profile.terminalV1) = s.capabilities
      rw [Finset.insert_eq_of_mem hmapped.required, Finset.erase_eq_of_notMem hmapped.notOptional]
    · exact List.append_nil _

/-- The sections of one call of `create_terminal_node`, with no other in between. -/
def createTerminalNode (call : Nat) (nodeId parent : NodeId) (spawnFails commitFails : Bool) :
    List Section :=
  [.prepare call nodeId parent, .spawn call spawnFails, .commit call commitFails, .close call,
    .rollback call]

theorem absent_idle (hcall : s.calls call = none) {sections : List Section}
    (hsections : ∀ i ∈ sections, (∃ fails, i = .spawn call fails) ∨
      (∃ fails, i = .commit call fails) ∨ i = .close call ∨ i = .rollback call) :
    run TerminalSession.step s sections = s := by
  induction sections with
  | nil => rfl
  | cons i rest ih =>
    have hstep : s.step i = s := by
      rcases hsections i List.mem_cons_self with ⟨fails, rfl⟩ | ⟨fails, rfl⟩ | rfl | rfl
      · change s.spawnCall call fails = s
        unfold TerminalSession.spawnCall
        rw [hcall]
      · change s.commitCall call fails = s
        unfold TerminalSession.commitCall
        rw [hcall]
      · change s.closeCall call = s
        unfold TerminalSession.closeCall
        rw [hcall]
      · change s.rollbackCall call = s
        unfold TerminalSession.rollbackCall
        rw [hcall]
    rw [run_cons, hstep]
    exact ih fun j hj => hsections j (List.mem_cons_of_mem i hj)

variable {c : CreateCall}

theorem rollbackCall_due (hcall : s.calls call = some c)
    (hstage : c.stage = .failed) :
    s.rollbackCall call = (s.rollbackTerminalType c.rollback).setCall call none := by
  unfold TerminalSession.rollbackCall
  rw [hcall]
  exact if_pos hstage

theorem closeCall_due (hcall : s.calls call = some c)
    (hstage : c.stage = .refused) :
    s.closeCall call = (s.close c.nodeId).setCall call (some { c with stage := .failed }) := by
  unfold TerminalSession.closeCall
  rw [hcall]
  exact if_pos hstage

theorem failed_rolls_back (hcall : s.calls call = some c)
    (hstage : c.stage = .failed) (commitFails : Bool) :
    run TerminalSession.step s [.commit call commitFails, .close call, .rollback call] =
      (s.rollbackTerminalType c.rollback).setCall call none := by
  have hcommit : s.commitCall call commitFails = s := by
    unfold TerminalSession.commitCall
    rw [hcall]
    exact if_neg (by rw [hstage]; decide)
  have hclose : s.closeCall call = s := by
    unfold TerminalSession.closeCall
    rw [hcall]
    exact if_neg (by rw [hstage]; decide)
  change ((s.commitCall call commitFails).closeCall call).rollbackCall call = _
  rw [hcommit, hclose, rollbackCall_due hcall hstage]

theorem Contract.spawned_call (h : Contract s) {nodeId : NodeId} (parent : NodeId)
    {typeRef : TypeRef} (hconnections : s.connections = [])
    (hallocates : s.Allocates typeRef.namespaceId rollback.createdNamespace)
    (hrequired : rollback.wasRequired = true ↔ Profile.terminalV1 ∈ s.capabilities.required)
    (hoptional : rollback.wasOptional = true ↔ Profile.terminalV1 ∈ s.capabilities.optional)
    {t : TerminalSession}
    (hcall : t.calls call = some ⟨nodeId, parent, typeRef, rollback, .spawned⟩)
    (hforest : StoreForest t.session.store)
    (hcapabilities : t.capabilities =
      (s.withTerminalType rollback.createdNamespace).capabilities)
    (htable : t.extensionNamespaces =
      (s.withTerminalType rollback.createdNamespace).extensionNamespaces)
    (hconnections' : t.connections = s.connections) (hnegotiated : t.hasNegotiated = false)
    (hfresh : nodeId ∉ s.streams) (hstreams : t.streams = s.streams ++ [nodeId])
    (hcreated : t.created = s.created) {commitFails : Bool}
    (hfailed : (run TerminalSession.step t
      [.commit call commitFails, .close call, .rollback call]).created = s.created) :
    Restored s (run TerminalSession.step t
      [.commit call commitFails, .close call, .rollback call]) := by
  rw [run_cons] at hfailed ⊢
  rcases commitCall_due hforest hcall rfl commitFails with hcommit | ⟨session', -, hcommit⟩
  · have hrefused : (t.setCall call (some ⟨nodeId, parent, typeRef, rollback, .refused⟩)).calls
        call = some ⟨nodeId, parent, typeRef, rollback, .refused⟩ := Function.update_self ..
    have hclosed : (((t.setCall call (some ⟨nodeId, parent, typeRef, rollback, .refused⟩)).close
        nodeId).setCall call (some ⟨nodeId, parent, typeRef, rollback, .failed⟩)).calls call =
        some ⟨nodeId, parent, typeRef, rollback, .failed⟩ := Function.update_self ..
    have hclose := closeCall_due hrefused rfl
    have hrollback := rollbackCall_due hclosed rfl
    rw [show t.step (.commit call commitFails) = _ from hcommit]
    change Restored s (TerminalSession.rollbackCall (TerminalSession.closeCall _ call) call)
    rw [hclose, hrollback]
    refine h.restores hconnections hallocates hrequired hoptional hcapabilities htable
      hconnections' hnegotiated ?_
    change t.streams.filter (· ≠ nodeId) = s.streams
    rw [hstreams, List.filter_append, List.filter_eq_self.mpr]
    · simp
    · intro x hx
      refine decide_eq_true fun hsame => ?_
      rw [hsame] at hx
      exact hfresh hx
  · rw [show t.step (.commit call commitFails) = _ from hcommit,
      absent_idle (Function.update_self ..) (by simp)] at hfailed
    change nodeId :: t.created = s.created at hfailed
    rw [hcreated] at hfailed
    exact absurd hfailed (List.cons_ne_self _ _)

theorem Contract.failed_call (h : Contract s) (hidle : s.calls call = none)
    (nodeId parent : NodeId) (spawnFails commitFails : Bool)
    (hfailed : (run TerminalSession.step s
      (createTerminalNode call nodeId parent spawnFails commitFails)).created = s.created) :
    Restored s (run TerminalSession.step s
      (createTerminalNode call nodeId parent spawnFails commitFails)) := by
  unfold createTerminalNode at hfailed ⊢
  rw [run_cons] at hfailed ⊢
  change (run TerminalSession.step (s.beginCall call nodeId parent) _).created = _ at hfailed
  change Restored s (run TerminalSession.step (s.beginCall call nodeId parent) _)
  rcases s.beginCall_cases call nodeId parent with
    heq | ⟨typeRef, rollback, prepared, -, hprepared, heq⟩
  · rw [heq, absent_idle hidle (by simp)]
    exact ⟨rfl, rfl⟩
  obtain ⟨hconnections, hnegotiated, hallocates, hrequired, hoptional, rfl⟩ :=
    prepareTerminalType_ok hprepared
  have hrestores {t : TerminalSession} := h.restores hconnections hallocates hrequired hoptional
    (t := t)
  rw [heq, run_cons] at hfailed ⊢
  have hprepares : ((s.withTerminalType rollback.createdNamespace).setCall call
      (some ⟨nodeId, parent, typeRef, rollback, .prepared⟩)).calls call =
      some ⟨nodeId, parent, typeRef, rollback, .prepared⟩ := Function.update_self ..
  rcases spawnCall_due hprepares rfl spawnFails with hspawn | ⟨hfresh, hspawn⟩
  · rw [show TerminalSession.step _ (.spawn call spawnFails) = _ from hspawn,
      failed_rolls_back (Function.update_self ..) rfl]
    exact hrestores rfl rfl rfl hnegotiated rfl
  rw [show TerminalSession.step _ (.spawn call spawnFails) = _ from hspawn] at hfailed ⊢
  refine h.spawned_call parent hconnections hallocates hrequired hoptional ?_ ?_ ?_ ?_ ?_ ?_ hfresh
    ?_ ?_ hfailed
  · exact Function.update_self ..
  · exact h.forest
  · rfl
  · rfl
  · rfl
  · exact hnegotiated
  · rfl
  · rfl

structure ContractHolds (s : TerminalSession) : Prop where
  mapped : ∀ x ∈ s.created, ∀ node, s.session.store.nodes[x]? = some node →
    namespaceOf s.extensionNamespaces terminalProfileUri = some node.nodeType.namespaceId ∧
      Profile.terminalV1 ∈ s.capabilities.required
  distinct : (s.extensionNamespaces.map (·.namespaceId)).Nodup
  handed : ∀ mapping ∈ s.handed, mapping ∈ s.extensionNamespaces
  failedCall : (∀ k, s.calls k = none) → ∀ call nodeId parent spawnFails commitFails,
    (run TerminalSession.step s
      (createTerminalNode call nodeId parent spawnFails commitFails)).created = s.created →
    (run TerminalSession.step s
        (createTerminalNode call nodeId parent spawnFails commitFails)).capabilities =
        s.capabilities ∧
      (run TerminalSession.step s
        (createTerminalNode call nodeId parent spawnFails commitFails)).extensionNamespaces =
        s.extensionNamespaces

theorem Contract.holds (h : Contract s) : ContractHolds s where
  mapped x hx node hnode := by
    have htype : typeOf s.session.store x = some node.nodeType := by
      unfold typeOf
      rw [hnode]
      rfl
    have hmapped := h.nodes x hx node.nodeType htype
    exact ⟨namespaceOf_of_mem h.tabled.uris hmapped.table, hmapped.required⟩
  distinct := h.tabled.ids
  handed mapping hmem := (h.tabled.handed mapping hmem).1
  failedCall hidle call nodeId parent spawnFails commitFails :=
    h.failed_call (hidle call) nodeId parent spawnFails commitFails

theorem step_handed (i : Section) : s.handed <+: (s.step i).handed := by
  have hsame {t : TerminalSession} (h : t.handed = s.handed) : s.handed <+: t.handed := by
    rw [h]
  cases i with
  | spawn call fails =>
    apply hsame
    rcases s.spawnCall_cases call fails with heq | ⟨c, -, -, heq | ⟨-, heq⟩⟩
    all_goals exact congrArg (·.handed) heq
  | close call =>
    apply hsame
    rcases s.closeCall_cases call with heq | ⟨c, -, -, heq⟩
    all_goals exact congrArg (·.handed) heq
  | closeMissing nodeId =>
    apply hsame
    change TerminalSession.handed (if nodeId ∈ s.closings then _ else s) = _
    split_ifs <;> rfl
  | shutdown =>
    apply hsame
    change TerminalSession.handed (if 0 < s.shutdowns then _ else s) = _
    split_ifs <;> rfl
  | finishHandshake connection =>
    rcases s.finishHandshake_cases connection with heq | ⟨table, -, heq⟩
    · rw [heq]
    · rw [heq]
      exact List.prefix_append _ _
  | _ =>
    apply hsame
    refine (step_still ?_).1
    trivial

theorem run_handed (sections : List Section) :
    s.handed <+: (run TerminalSession.step s sections).handed := by
  induction sections generalizing s with
  | nil => exact List.prefix_rfl
  | cons i rest ih => exact (step_handed i).trans ih

/-- In a run whose every step is careful the contract holds in every state, and a mapping that a
client was handed is in the table ever after. -/
theorem contract_holds_of_careful (capabilities : ServerCapabilities) (journalCapacity : Nat)
    (sections : List Section)
    (hcareful : EveryStep TerminalSession.step Careful
      (.withConfig capabilities journalCapacity) sections) :
    EveryState TerminalSession.step ContractHolds (.withConfig capabilities journalCapacity)
        sections ∧
      ∀ earlier later, sections = earlier ++ later → ∀ mapping ∈
        (run TerminalSession.step (.withConfig capabilities journalCapacity) earlier).handed,
        mapping ∈ (run TerminalSession.step (.withConfig capabilities journalCapacity)
          sections).extensionNamespaces := by
  have hcontract : EveryState TerminalSession.step Contract
      (.withConfig capabilities journalCapacity) sections :=
    hcareful.everyState (fun _ i h hstep => h.step i hstep)
      (Contract.withConfig capabilities journalCapacity)
  refine ⟨hcontract.mono fun _ h => h.holds, ?_⟩
  rintro earlier later rfl mapping hmem
  have hlast := hcontract.last
  rw [run_append] at hlast ⊢
  exact (hlast.tabled.handed mapping ((run_handed later).subset hmem)).1

def noCapabilities : ServerCapabilities := ⟨∅, ∅⟩

def surfaceClosure : UiClosure Unit :=
  .call (.createNode 1 ⟨0, 1⟩ none none []) fun _ _ => .finish (.ok ())

/-- One call creates its node; the next one fails, and rolls back to what the node needs. -/
def sequentialSections : List Section :=
  [.transaction fun _ _ => surfaceClosure, .prepare 0 7 1, .spawn 0 false, .commit 0 false,
    .prepare 1 8 1, .spawn 1 true, .rollback 1, .attach, .readTable 0, .finishHandshake 0]

theorem sequential_contract_holds :
    EveryState TerminalSession.step ContractHolds (.withConfig noCapabilities 8)
        sequentialSections ∧
      ∀ earlier later, sequentialSections = earlier ++ later → ∀ mapping ∈
        (run TerminalSession.step (.withConfig noCapabilities 8) earlier).handed,
        mapping ∈ (run TerminalSession.step (.withConfig noCapabilities 8)
          sequentialSections).extensionNamespaces := by
  apply contract_holds_of_careful
  refine ⟨trivial, trivial, trivial, trivial, trivial, trivial, ?_, trivial, trivial, trivial,
    trivial⟩
  rintro c - - ⟨⟨-, -, hstreams⟩, -⟩
  exact absurd hstreams (by decide +kernel)

/-- The first call's stream fails while the second has prepared the same type: the rollback takes
the namespace from under the second, which then creates its node. -/
def overtakenSections : List Section :=
  [.transaction fun _ _ => surfaceClosure, .prepare 0 7 1, .prepare 1 8 1, .spawn 0 true,
    .rollback 0, .spawn 1 false, .commit 1 false]

theorem overtaken_unmapped :
    ∃ sections, ¬EveryState TerminalSession.step ContractHolds (.withConfig noCapabilities 8)
      sections := by
  refine ⟨overtakenSections, fun hevery => ?_⟩
  have hmapped := hevery.last.mapped 8 (by decide +kernel)
    (Node.new 8 ⟨1, terminalLocalTypeId⟩ (some 1) []) (by decide +kernel)
  exact absurd hmapped.1 (by decide +kernel)

end Srui.Sessiond.TerminalContracts

import Srui.Sessiond.TerminalSteps

/-!
Terminal nodes and PTY streams as pairs: which interleavings keep them together.
-/

namespace Srui.Sessiond.TerminalPairs

open Std Basic.Runs SemanticTree.Values SemanticTree.NodeForest SemanticTree.NodeRuns
open SemanticTree.NodeTypes Journal.TransactionJournals Sdk.UiTransactions Sessiond.Sessions
open Sessiond.TerminalNodes Sessiond.TerminalNodes.TerminalSession

/-- A call whose stream is its own to commit or to close. -/
def CreateCall.Holds (c : CreateCall) : Prop := c.stage = .spawned ∨ c.stage = .refused

structure Kept (s : TerminalSession) : Prop where
  calm : s.shutdowns = 0
  created : ∀ x ∈ s.created, x ∈ s.session.store.usedIds ∧
    (Live s.session.store x → x ∈ s.streams)
  closings : ∀ x ∈ s.closings, Retired x s.session.store
  held : ∀ k c, s.calls k = some c → CreateCall.Holds c →
    (c.nodeId ∈ s.created → ¬Live s.session.store c.nodeId) ∧
      (c.nodeId ∈ s.streams ∨ Retired c.nodeId s.session.store)
  alone : ∀ k k' c c', k ≠ k' → s.calls k = some c → s.calls k' = some c' →
    CreateCall.Holds c → CreateCall.Holds c' → c.nodeId = c'.nodeId →
      Retired c.nodeId s.session.store

structure Paired (s : TerminalSession) : Prop where
  forest : StoreForest s.session.store
  bound : ∀ x ∈ s.streams, Live s.session.store x ∨
    (∃ k c, s.calls k = some c ∧ CreateCall.Holds c ∧ c.nodeId = x) ∨ x ∈ s.closings
  ended : s.terminalState = true → 0 < s.shutdowns ∨ s.streams = []
  kept : s.terminalState = false → Kept s

/-- The sections that do not touch streams, nodes or the calls that hold one. -/
structure Beside (s s' : TerminalSession) : Prop where
  session : s'.session = s.session
  terminalState : s'.terminalState = s.terminalState
  streams : s'.streams = s.streams
  closings : s'.closings = s.closings
  shutdowns : s'.shutdowns = s.shutdowns
  created : s'.created = s.created
  holders : ∀ k c, CreateCall.Holds c → (s'.calls k = some c ↔ s.calls k = some c)

variable {s s' : TerminalSession}

theorem Paired.beside (h : Paired s) (hbeside : Beside s s') : Paired s' := by
  obtain ⟨hsession, hterminal, hstreams, hclosings, hshutdowns, hcreated, hholders⟩ := hbeside
  refine ⟨?_, ?_, ?_, ?_⟩
  · rw [hsession]
    exact h.forest
  · rw [hsession, hstreams, hclosings]
    intro x hx
    rcases h.bound x hx with hlive | ⟨k, c, hcall, hholds, hid⟩ | hclosing
    · exact .inl hlive
    · exact .inr (.inl ⟨k, c, (hholders k c hholds).mpr hcall, hholds, hid⟩)
    · exact .inr (.inr hclosing)
  · rw [hterminal, hshutdowns, hstreams]
    exact h.ended
  · rw [hterminal]
    intro hopen
    obtain ⟨hcalm, hmade, hlisted, hheld, halone⟩ := h.kept hopen
    refine ⟨?_, ?_, ?_, ?_, ?_⟩
    · rw [hshutdowns]
      exact hcalm
    · rw [hcreated, hsession, hstreams]
      exact hmade
    · rw [hclosings, hsession]
      exact hlisted
    · intro k c hcall hholds
      rw [hcreated, hsession, hstreams]
      exact hheld k c ((hholders k c hholds).mp hcall) hholds
    · intro k k' c c' hne hcall hcall' hholds hholds' hsame
      rw [hsession]
      exact halone k k' c c' hne ((hholders k c hholds).mp hcall)
        ((hholders k' c' hholds').mp hcall') hholds hholds' hsame

theorem Beside.setCall {before after : Option CreateCall} {call : Nat}
    (hbefore : s.calls call = before) (hbeside : Beside s s')
    (hcalls : s'.calls = s.calls) (hfree : ∀ c, before = some c → ¬CreateCall.Holds c)
    (hfree' : ∀ c, after = some c → ¬CreateCall.Holds c) : Beside s (s'.setCall call after) := by
  refine ⟨hbeside.session, hbeside.terminalState, hbeside.streams, hbeside.closings,
    hbeside.shutdowns, hbeside.created, fun k c hholds => ?_⟩
  change Function.update s'.calls call after k = some c ↔ _
  by_cases hsame : k = call
  · subst hsame
    rw [Function.update_self]
    constructor
    · intro hcall
      exact absurd hholds (hfree' c hcall)
    · intro hcall
      exact absurd hholds (hfree c (hbefore.symm.trans hcall))
  · rw [Function.update_of_ne hsame, hcalls]

theorem Beside.refl (s : TerminalSession) : Beside s s :=
  ⟨rfl, rfl, rfl, rfl, rfl, rfl, fun _ _ _ => Iff.rfl⟩

theorem Beside.table (s : TerminalSession) (capabilities : ServerCapabilities)
    (table : List ExtensionNamespaceMapping) (hasNegotiated : Bool)
    (connections : List (Option (List ExtensionNamespaceMapping)))
    (handed : List ExtensionNamespaceMapping) :
    Beside s { s with
      capabilities := capabilities
      extensionNamespaces := table
      hasNegotiated := hasNegotiated
      connections := connections
      handed := handed } :=
  ⟨rfl, rfl, rfl, rfl, rfl, rfl, fun _ _ _ => Iff.rfl⟩

namespace Paired

theorem beginCall (h : Paired s) (call : Nat) (nodeId parent : NodeId) :
    Paired (s.beginCall call nodeId parent) := by
  rcases s.beginCall_cases call nodeId parent with
    heq | ⟨typeRef, rollback, prepared, hcall, hprepared, heq⟩
  · rw [heq]
    exact h
  · obtain ⟨-, -, -, -, -, rfl⟩ := prepareTerminalType_ok hprepared
    rw [heq]
    apply h.beside
    refine Beside.setCall hcall (Beside.table s _ _ _ _ _) rfl ?_ ?_
    · rintro c ⟨⟩
    · rintro c ⟨⟩ (hstage | hstage) <;> cases hstage

variable {c : CreateCall} {call : Nat}

variable (h : Paired s)

include h

theorem spawned (hcall : s.calls call = some c) (hstage : c.stage = .prepared)
    (hfresh : c.nodeId ∉ s.streams) (htimely : s.terminalState = true → 0 < s.shutdowns) :
    Paired (({ s with streams := s.streams ++ [c.nodeId] } : TerminalSession).setCall call
      (some { c with stage := .spawned })) := by
  have hother {k : Nat} {d : CreateCall} (hd : s.calls k = some d) (hholds : CreateCall.Holds d) :
      k ≠ call := by
    rintro rfl
    obtain rfl := Option.some.inj (hd.symm.trans hcall)
    rcases hholds with hspawned | hrefused
    · exact absurd (hstage.symm.trans hspawned) (by decide)
    · exact absurd (hstage.symm.trans hrefused) (by decide)
  have hcases {k : Nat} {d : CreateCall}
      (hd : Function.update s.calls call (some { c with stage := .spawned }) k = some d) :
      (k = call ∧ d = { c with stage := .spawned }) ∨ k ≠ call ∧ s.calls k = some d := by
    by_cases hsame : k = call
    · subst hsame
      rw [Function.update_self] at hd
      exact .inl ⟨rfl, (Option.some.inj hd).symm⟩
    · rw [Function.update_of_ne hsame] at hd
      exact .inr ⟨hsame, hd⟩
  refine ⟨h.forest, ?_, ?_, ?_⟩
  · intro x hx
    rcases List.mem_append.mp hx with hx | hx
    · rcases h.bound x hx with hlive | ⟨k, d, hd, hholds, hid⟩ | hclosing
      · exact .inl hlive
      · refine .inr (.inl ⟨k, d, ?_, hholds, hid⟩)
        change Function.update s.calls call _ k = some d
        rw [Function.update_of_ne (hother hd hholds)]
        exact hd
      · exact .inr (.inr hclosing)
    · rw [List.mem_singleton.mp hx]
      refine .inr (.inl ⟨call, { c with stage := .spawned }, ?_, .inl rfl, rfl⟩)
      exact Function.update_self ..
  · exact fun hterminal => .inl (htimely hterminal)
  · intro hopen
    obtain ⟨hcalm, hmade, hlisted, hheld, halone⟩ := h.kept hopen
    have hretired {k : Nat} {d : CreateCall} (hd : s.calls k = some d)
        (hholds : CreateCall.Holds d) (hsame : d.nodeId = c.nodeId) :
        Retired d.nodeId s.session.store := by
      rcases (hheld k d hd hholds).2 with hlive | hretired
      · rw [hsame] at hlive
        exact absurd hlive hfresh
      · exact hretired
    refine ⟨hcalm, ?_, hlisted, ?_, ?_⟩
    · intro x hx
      exact ⟨(hmade x hx).1, fun hlive => List.mem_append_left _ ((hmade x hx).2 hlive)⟩
    · intro k d hd hholds
      rcases hcases hd with ⟨-, rfl⟩ | ⟨-, hd⟩
      · refine ⟨fun hcreated hlive => ?_, .inl (List.mem_append_right _ List.mem_cons_self)⟩
        exact hfresh ((hmade _ hcreated).2 hlive)
      · obtain ⟨hnotLive, hstream⟩ := hheld k d hd hholds
        exact ⟨hnotLive, hstream.imp_left (List.mem_append_left _)⟩
    · intro k k' d d' hne hd hd' hholds hholds' hsame
      rcases hcases hd with ⟨rfl, rfl⟩ | ⟨-, hold⟩
      · rcases hcases hd' with ⟨rfl, rfl⟩ | ⟨-, hold'⟩
        · exact absurd rfl hne
        · have hgone := hretired hold' hholds' hsame.symm
          rw [← hsame] at hgone
          exact hgone
      · rcases hcases hd' with ⟨rfl, rfl⟩ | ⟨-, hold'⟩
        · exact hretired hold hholds hsame
        · exact halone k k' d d' hne hold hold' hholds hholds' hsame

theorem spawnCall (call : Nat) (fails : Bool) (htimely : s.terminalState = true → 0 < s.shutdowns) :
    Paired (s.spawnCall call fails) := by
  rcases s.spawnCall_cases call fails with heq | ⟨c, hcall, hstage, heq | ⟨hfresh, heq⟩⟩
  · rw [heq]
    exact h
  · rw [heq]
    apply h.beside
    refine Beside.setCall hcall (Beside.refl s) rfl ?_ ?_
    · rintro d ⟨⟩ (hspawned | hrefused)
      · exact absurd (hstage.symm.trans hspawned) (by decide)
      · exact absurd (hstage.symm.trans hrefused) (by decide)
    · rintro d ⟨⟩ (hspawned | hrefused)
      · cases hspawned
      · cases hrefused
  · rw [heq]
    exact h.spawned hcall hstage hfresh htimely

theorem refused (hcall : s.calls call = some c) (hstage : c.stage = .spawned) :
    Paired (s.setCall call (some { c with stage := .refused })) := by
  have hback {k : Nat} {d : CreateCall}
      (hd : Function.update s.calls call (some { c with stage := .refused }) k = some d) :
      ∃ d', s.calls k = some d' ∧ d'.nodeId = d.nodeId ∧
        (CreateCall.Holds d → CreateCall.Holds d') := by
    by_cases hsame : k = call
    · subst hsame
      rw [Function.update_self] at hd
      obtain rfl := Option.some.inj hd
      exact ⟨c, hcall, rfl, fun _ => .inl hstage⟩
    · rw [Function.update_of_ne hsame] at hd
      exact ⟨d, hd, rfl, id⟩
  refine ⟨h.forest, ?_, h.ended, ?_⟩
  · intro x hx
    rcases h.bound x hx with hlive | ⟨k, d, hd, hholds, hid⟩ | hclosing
    · exact .inl hlive
    · by_cases hsame : k = call
      · subst hsame
        obtain rfl := Option.some.inj (hd.symm.trans hcall)
        refine .inr (.inl ⟨k, { d with stage := .refused }, ?_, .inr rfl, hid⟩)
        exact Function.update_self ..
      · refine .inr (.inl ⟨k, d, ?_, hholds, hid⟩)
        exact (Function.update_of_ne hsame _ _).trans hd
    · exact .inr (.inr hclosing)
  · intro hopen
    obtain ⟨hcalm, hmade, hlisted, hheld, halone⟩ := h.kept hopen
    refine ⟨hcalm, hmade, hlisted, ?_, ?_⟩
    · intro k d hd hholds
      obtain ⟨d', hd', hid, hkeeps⟩ := hback hd
      rw [← hid]
      exact hheld k d' hd' (hkeeps hholds)
    · intro k k' d d' hne hd hd' hholds hholds' hsame
      obtain ⟨e, he, hid, hkeeps⟩ := hback hd
      obtain ⟨e', he', hid', hkeeps'⟩ := hback hd'
      rw [← hid]
      exact halone k k' e e' hne he he' (hkeeps hholds) (hkeeps' hholds')
        (hid.trans (hsame.trans hid'.symm))

theorem creates {session' : Session} (hcall : s.calls call = some c) (hstage : c.stage = .spawned)
    (hcreates : Creates s.session c session') :
    Paired (({ s with session := session', created := c.nodeId :: s.created } :
      TerminalSession).setCall call none) := by
  obtain ⟨hfresh, hused, htyped, hnodes⟩ := hcreates
  have hlive : Live session'.store c.nodeId := by
    by_contra hdead
    have hnone := typeOf_eq_none.mpr (not_live_iff.mp hdead)
    rw [htyped] at hnone
    cases hnone
  have hstays {x : NodeId} (hx : x ∈ s.session.store.usedIds) (hbefore : Live s.session.store x) :
      Live session'.store x :=
    (hnodes.live hx hbefore).resolve_right Bool.false_ne_true
  have hback {k : Nat} {d : CreateCall} (hd : Function.update s.calls call none k = some d) :
      k ≠ call ∧ s.calls k = some d := by
    by_cases hsame : k = call
    · subst hsame
      rw [Function.update_self] at hd
      cases hd
    · rw [Function.update_of_ne hsame] at hd
      exact ⟨hsame, hd⟩
  refine ⟨hnodes.outlives.forest, ?_, h.ended, ?_⟩
  · intro x hx
    rcases h.bound x hx with hbefore | ⟨k, d, hd, hholds, hid⟩ | hclosing
    · exact .inl (hstays (hbefore.used h.forest) hbefore)
    · by_cases hsame : k = call
      · subst hsame
        obtain rfl := Option.some.inj (hd.symm.trans hcall)
        rw [← hid]
        exact .inl hlive
      · refine .inr (.inl ⟨k, d, ?_, hholds, hid⟩)
        exact (Function.update_of_ne hsame _ _).trans hd
    · exact .inr (.inr hclosing)
  · intro hopen
    obtain ⟨hcalm, hmade, hlisted, hheld, halone⟩ := h.kept hopen
    have hown := (hheld call c hcall (.inl hstage)).2
    refine ⟨hcalm, ?_, fun x hx => hnodes.retired (hlisted x hx), ?_, ?_⟩
    · intro x hx
      rcases List.mem_cons.mp hx with rfl | hx
      · refine ⟨hused, fun _ => hown.resolve_right fun hretired => hfresh hretired.1⟩
      · refine ⟨hnodes.outlives.used x (hmade x hx).1, fun hafter => (hmade x hx).2 ?_⟩
        exact hnodes.outlives.live x (hmade x hx).1 hafter
    · intro k d hd hholds
      obtain ⟨hne, hd⟩ := hback hd
      obtain ⟨hnotLive, hstream⟩ := hheld k d hd hholds
      refine ⟨fun hmem hafter => ?_, hstream.imp_right fun hretired => hnodes.retired hretired⟩
      rcases List.mem_cons.mp hmem with hsame | hmem
      · exact hfresh (hsame ▸
          (halone k call d c hne hd hcall hholds (.inl hstage) hsame).1)
      · exact hnotLive hmem (hnodes.outlives.live _ (hmade _ hmem).1 hafter)
    · intro k k' d d' hne hd hd' hholds hholds' hsame
      exact hnodes.retired (halone k k' d d' hne (hback hd).2 (hback hd').2 hholds hholds' hsame)

theorem closes (hcall : s.calls call = some c) (hstage : c.stage = .refused) :
    Paired ((s.close c.nodeId).setCall call (some { c with stage := .failed })) := by
  have hback {k : Nat} {d : CreateCall}
      (hd : Function.update s.calls call (some { c with stage := .failed }) k = some d)
      (hholds : CreateCall.Holds d) : k ≠ call ∧ s.calls k = some d := by
    by_cases hsame : k = call
    · subst hsame
      rw [Function.update_self] at hd
      obtain rfl := Option.some.inj hd
      rcases hholds with hspawned | hrefused
      · cases hspawned
      · cases hrefused
    · rw [Function.update_of_ne hsame] at hd
      exact ⟨hsame, hd⟩
  refine ⟨h.forest, ?_, ?_, ?_⟩
  · intro x hx
    obtain ⟨hx, hne⟩ := List.mem_filter.mp hx
    rcases h.bound x hx with hlive | ⟨k, d, hd, hholds, hid⟩ | hclosing
    · exact .inl hlive
    · have hother : k ≠ call := by
        rintro rfl
        obtain rfl := Option.some.inj (hd.symm.trans hcall)
        exact of_decide_eq_true hne hid.symm
      refine .inr (.inl ⟨k, d, ?_, hholds, hid⟩)
      exact (Function.update_of_ne hother _ _).trans hd
    · exact .inr (.inr hclosing)
  · intro hterminal
    refine (h.ended hterminal).imp_right fun hempty => ?_
    change s.streams.filter _ = []
    rw [hempty]
    rfl
  · intro hopen
    obtain ⟨hcalm, hmade, hlisted, hheld, halone⟩ := h.kept hopen
    have hown := (hheld call c hcall (.inr hstage)).1
    refine ⟨hcalm, ?_, hlisted, ?_, ?_⟩
    · intro x hx
      refine ⟨(hmade x hx).1, fun hlive => List.mem_filter.mpr ⟨(hmade x hx).2 hlive, ?_⟩⟩
      refine decide_eq_true fun hsame => ?_
      rw [hsame] at hx hlive
      exact hown hx hlive
    · intro k d hd hholds
      obtain ⟨hne, hd⟩ := hback hd hholds
      obtain ⟨hnotLive, hstream⟩ := hheld k d hd hholds
      refine ⟨hnotLive, ?_⟩
      by_cases hsame : d.nodeId = c.nodeId
      · exact .inr (halone k call d c hne hd hcall hholds (.inr hstage) hsame)
      · exact hstream.imp_left fun hlive => List.mem_filter.mpr ⟨hlive, decide_eq_true hsame⟩
    · intro k k' d d' hne hd hd' hholds hholds' hsame
      exact halone k k' d d' hne (hback hd hholds).2 (hback hd' hholds').2 hholds hholds' hsame

theorem rollbackCall (call : Nat) : Paired (s.rollbackCall call) := by
  rcases s.rollbackCall_cases call with heq | ⟨c, hcall, hstage, heq⟩
  · rw [heq]
    exact h
  · rw [heq]
    apply h.beside
    have hbeside : Beside s (s.rollbackTerminalType c.rollback) := by
      unfold rollbackTerminalType
      by_cases hguard : 0 < s.attachedConnections ∨ s.hasNegotiated ∨ s.streams ≠ []
      · rw [if_pos hguard]
        exact Beside.refl s
      · rw [if_neg hguard]
        exact Beside.table s _ _ _ _ _
    have hcalls := congrArg TerminalSession.calls (s.rollbackTerminalType_eq c.rollback)
    refine Beside.setCall hcall hbeside hcalls ?_ ?_
    · rintro d ⟨⟩ (hspawned | hrefused)
      · exact absurd (hstage.symm.trans hspawned) (by decide)
      · exact absurd (hstage.symm.trans hrefused) (by decide)
    · rintro d ⟨⟩

theorem committed {session' : Session} {deletesNodes : Bool}
    (hnodes : NodesStep s.session.store session'.store deletesNodes)
    (hlists : s.terminalState = false → deletesNodes = true →
      ∀ x ∈ s.streams, x ∈ s.session.store.usedIds) :
    Paired (s.committed session' deletesNodes) := by
  refine ⟨hnodes.outlives.forest, ?_, h.ended, ?_⟩
  · intro x hx
    by_cases hlive : Live session'.store x
    · exact .inl hlive
    rcases h.bound x hx with hbefore | hcalls | hclosing
    · rcases hnodes.live (hbefore.used h.forest) hbefore with hafter | rfl
      · exact absurd hafter hlive
      · refine .inr (.inr (List.mem_append_right _ ?_))
        refine List.mem_filter.mpr ⟨hx, ?_⟩
        change (!session'.store.nodes.contains x) = true
        rw [Bool.eq_false_iff.mpr hlive]
        rfl
    · exact .inr (.inl hcalls)
    · exact .inr (.inr (List.mem_append_left _ hclosing))
  · intro hopen
    obtain ⟨hcalm, hmade, hlisted, hheld, halone⟩ := h.kept hopen
    refine ⟨hcalm, ?_, ?_, ?_, ?_⟩
    · intro x hx
      refine ⟨hnodes.outlives.used x (hmade x hx).1, fun hafter => (hmade x hx).2 ?_⟩
      exact hnodes.outlives.live x (hmade x hx).1 hafter
    · intro x hx
      rcases List.mem_append.mp hx with hx | hx
      · exact hnodes.retired (hlisted x hx)
      · cases deletesNodes with
        | false => exact absurd hx List.not_mem_nil
        | true =>
          obtain ⟨hstream, hgone⟩ := List.mem_filter.mp hx
          refine ⟨hnodes.outlives.used x (hlists hopen rfl x hstream), not_live_iff.mp ?_⟩
          intro hlive
          change (!session'.store.nodes.contains x) = true at hgone
          rw [show session'.store.nodes.contains x = true from hlive] at hgone
          exact absurd hgone (by decide)
    · intro k c hcall hholds
      obtain ⟨hnotLive, hstream⟩ := hheld k c hcall hholds
      refine ⟨fun hcreated hafter => hnotLive hcreated ?_,
        hstream.imp_right fun hretired => hnodes.retired hretired⟩
      exact hnodes.outlives.live _ (hmade _ hcreated).1 hafter
    · intro k k' c c' hne hcall hcall' hholds hholds' hsame
      exact hnodes.retired (halone k k' c c' hne hcall hcall' hholds hholds' hsame)

theorem closeMissing (nodeId : NodeId) :
    Paired (s.step (.closeMissing nodeId)) := by
  change Paired (if nodeId ∈ s.closings then _ else s)
  split_ifs with hmem
  · refine ⟨h.forest, ?_, ?_, ?_⟩
    · intro x hx
      obtain ⟨hx, hne⟩ := List.mem_filter.mp hx
      refine (h.bound x hx).imp_right fun hrest => hrest.imp_right fun hclosing => ?_
      exact (List.mem_erase_of_ne (of_decide_eq_true hne)).mpr hclosing
    · intro hterminal
      refine (h.ended hterminal).imp_right fun hempty => ?_
      change s.streams.filter _ = []
      rw [hempty]
      rfl
    · intro hopen
      obtain ⟨hcalm, hmade, hlisted, hheld, halone⟩ := h.kept hopen
      have hretired := hlisted nodeId hmem
      refine ⟨hcalm, ?_, fun x hx => hlisted x (List.mem_of_mem_erase hx), ?_, halone⟩
      · intro x hx
        refine ⟨(hmade x hx).1, fun hlive => List.mem_filter.mpr ⟨(hmade x hx).2 hlive, ?_⟩⟩
        refine decide_eq_true fun hsame => ?_
        rw [hsame] at hlive
        exact not_live_iff.mpr hretired.2 hlive
      · intro k c hcall hholds
        obtain ⟨hnotLive, hstream⟩ := hheld k c hcall hholds
        refine ⟨hnotLive, ?_⟩
        by_cases hsame : c.nodeId = nodeId
        · rw [hsame]
          exact .inr hretired
        · exact hstream.imp_left fun hlive => List.mem_filter.mpr ⟨hlive, decide_eq_true hsame⟩
  · exact h

theorem terminate : Paired (s.step .terminateOrExpire) :=
  ⟨h.forest, h.bound, fun _ => .inl (Nat.succ_pos _), 
    fun hopen => absurd hopen.symm Bool.false_ne_true⟩

theorem shutdown : Paired (s.step .shutdown) := by
  change Paired (if 0 < s.shutdowns then _ else s)
  split_ifs with hdue
  · refine ⟨h.forest, fun x hx => absurd hx List.not_mem_nil, fun _ => .inr rfl, ?_⟩
    intro hopen
    rw [(h.kept hopen).calm] at hdue
    exact absurd hdue (Nat.lt_irrefl 0)
  · exact h

end Paired

/-- No stream is spawned after the last shutdown of a session that has ended, and a commit that
deletes nodes finds every live stream's id used. -/
def Careful (s : TerminalSession) : Section → Prop
  | .spawn _ _ => s.terminalState = true → 0 < s.shutdowns
  | .transaction f => s.terminalState = false → s.transactionDeletes f = true →
      ∀ x ∈ s.streams, x ∈ s.session.store.usedIds
  | .commitTransaction tx => s.terminalState = false → s.wireDeletes tx = true →
      ∀ x ∈ s.streams, x ∈ s.session.store.usedIds
  | _ => True

theorem Paired.step (h : Paired s) (i : Section) (hcareful : Careful s i) :
    Paired (s.step i) := by
  cases i with
  | prepare call nodeId parent => exact h.beginCall call nodeId parent
  | spawn call fails => exact h.spawnCall call fails hcareful
  | commit call fails =>
    change Paired (s.commitCall call fails)
    rcases s.commitCall_cases h.forest call fails with
      heq | ⟨c, hcall, hstage, heq | ⟨session', hcreates, heq⟩⟩
    · rw [heq]
      exact h
    · rw [heq]
      exact h.refused hcall hstage
    · rw [heq]
      exact h.creates hcall hstage hcreates
  | close call =>
    change Paired (s.closeCall call)
    rcases s.closeCall_cases call with heq | ⟨c, hcall, hstage, heq⟩
    · rw [heq]
      exact h
    · rw [heq]
      exact h.closes hcall hstage
  | rollback call => exact h.rollbackCall call
  | registerOptional profile =>
    rcases s.registerOptional_cases profile with heq | ⟨-, createdNamespace, heq, -⟩
    · rw [heq]
      exact h
    · rw [heq]
      exact h.beside (Beside.table s _ _ _ _ _)
  | transaction f =>
    change Paired (s.transaction f)
    rcases s.transaction_cases h.forest f with heq | ⟨session', heq, hnodes⟩
    · rw [heq]
      exact h
    · rw [heq]
      exact h.committed hnodes hcareful
  | commitTransaction tx =>
    change Paired (s.commitTransaction tx)
    rcases s.commitTransaction_cases h.forest tx with heq | ⟨session', heq, hnodes⟩
    · rw [heq]
      exact h
    · rw [heq]
      exact h.committed hnodes hcareful
  | closeMissing nodeId => exact h.closeMissing nodeId
  | terminateOrExpire => exact h.terminate
  | shutdown => exact h.shutdown
  | attach =>
    change Paired (if s.terminalState then s else _)
    split_ifs
    · exact h
    · exact h.beside (Beside.table s _ _ _ _ _)
  | detach connection | readTable connection => exact h.beside (Beside.table s _ _ _ _ _)
  | finishHandshake connection =>
    rcases s.finishHandshake_cases connection with heq | ⟨table, -, heq⟩
    · rw [heq]
      exact h
    · rw [heq]
      exact h.beside (Beside.table s _ _ _ _ _)

theorem Paired.withConfig (capabilities : ServerCapabilities) (journalCapacity : Nat) :
    Paired (.withConfig capabilities journalCapacity) where
  forest := storeForest_empty _ _
  bound x hx := absurd hx List.not_mem_nil
  ended _ := .inr rfl
  kept _ :=
    { calm := rfl
      created := fun x hx => absurd hx List.not_mem_nil
      closings := fun x hx => absurd hx List.not_mem_nil
      held := by rintro k c ⟨⟩
      alone := by rintro k k' c c' - ⟨⟩ }

/-- No call that creates, deletes or shuts down is in progress. -/
def Idle (s : TerminalSession) : Prop :=
  (∀ k, s.calls k = none) ∧ s.closings = [] ∧ s.shutdowns = 0

/-- Every stream has its node; every node created has its stream, until the session ends, and
then there are none. -/
structure PairsHold (s : TerminalSession) : Prop where
  streamsHaveNodes : ∀ x ∈ s.streams, Live s.session.store x
  nodesHaveStreams : s.terminalState = false →
    ∀ x ∈ s.created, Live s.session.store x → x ∈ s.streams
  noneAfterEnd : s.terminalState = true → s.streams = []

theorem Paired.pairsHold (h : Paired s) (hidle : Idle s) : PairsHold s := by
  obtain ⟨hcalls, hclosings, hshutdowns⟩ := hidle
  refine ⟨?_, fun hopen x hx => ((h.kept hopen).created x hx).2, ?_⟩
  · intro x hx
    rcases h.bound x hx with hlive | ⟨k, c, hcall, -⟩ | hclosing
    · exact hlive
    · rw [hcalls k] at hcall
      cases hcall
    · rw [hclosings] at hclosing
      exact absurd hclosing List.not_mem_nil
  · intro hterminal
    refine (h.ended hterminal).resolve_left fun hdue => ?_
    rw [hshutdowns] at hdue
    exact absurd hdue (Nat.lt_irrefl 0)

/-- In a run whose every step is careful the pairs hold whenever the calls are over. -/
theorem pairs_hold_of_careful (capabilities : ServerCapabilities) (journalCapacity : Nat)
    (sections : List Section)
    (hcareful : EveryStep TerminalSession.step Careful
      (.withConfig capabilities journalCapacity) sections) :
    EveryState TerminalSession.step (fun s => Idle s → PairsHold s)
      (.withConfig capabilities journalCapacity) sections := by
  have hpaired : EveryState TerminalSession.step Paired
      (.withConfig capabilities journalCapacity) sections :=
    hcareful.everyState (fun _ i h hstep => h.step i hstep)
      (Paired.withConfig capabilities journalCapacity)
  exact hpaired.mono fun _ h hidle => h.pairsHold hidle

def noCapabilities : ServerCapabilities := ⟨∅, ∅⟩

def surfaceClosure : UiClosure Unit :=
  .call (.createNode 1 ⟨0, 1⟩ none none []) fun _ _ =>
    .call (.createNode 2 ⟨0, 3⟩ (some 1) none []) fun _ _ => .finish (.ok ())

def deleteClosure : UiClosure Unit := .call (.delete 2) fun _ _ => .finish (.ok ())

/-- A terminal is created, committed and deleted again without anything in between. -/
def tidySections : List Section :=
  [.transaction fun _ _ => surfaceClosure, .prepare 0 7 1, .spawn 0 false, .commit 0 false,
    .transaction fun _ _ => .call (.delete 7) fun _ _ => .finish (.ok ()), .closeMissing 7,
    .terminateOrExpire, .shutdown]

theorem tidySections_pairs_hold :
    EveryState TerminalSession.step (fun s => Idle s → PairsHold s)
      (.withConfig noCapabilities 8) tidySections := by
  apply pairs_hold_of_careful
  refine ⟨?_, trivial, ?_, trivial, ?_, trivial, trivial, trivial, trivial⟩
  · intro _ hdeletes
    exact absurd hdeletes (by decide +kernel)
  · intro hterminal
    exact absurd hterminal (by decide +kernel)
  · intro _ _
    decide +kernel

/-- Another node is deleted while the stream has no node yet: the stream is listed, its node
committed, and the stream closed. -/
def killingSections : List Section :=
  [.transaction fun _ _ => surfaceClosure, .prepare 0 7 1, .spawn 0 false,
    .transaction fun _ _ => deleteClosure, .commit 0 false, .closeMissing 7]

theorem killed_terminal :
    ∃ sections, ¬EveryState TerminalSession.step (fun s => Idle s → PairsHold s)
      (.withConfig noCapabilities 8) sections := by
  refine ⟨killingSections, fun hevery => ?_⟩
  have hlast := hevery.last
  have hidle : Idle (run TerminalSession.step (.withConfig noCapabilities 8) killingSections) := by
    refine ⟨fun k => ?_, by decide +kernel, by decide +kernel⟩
    by_cases hk : k = 0
    · subst hk
      decide +kernel
    · refine run_calls fun i hi => ?_
      intro hcall
      have hzero : ∀ i ∈ killingSections, sectionCall i = none ∨ sectionCall i = some 0 := by
        intro i hi
        fin_cases hi <;> simp [sectionCall]
      rcases hzero i hi with hnone | hsame
      · rw [hnone] at hcall
        cases hcall
      · exact hk (Option.some.inj (hcall.symm.trans hsame))
  have hmissing := (hlast hidle).nodesHaveStreams (by decide +kernel) 7 (by decide +kernel)
    (by unfold Live; decide +kernel)
  exact absurd hmissing (by decide +kernel)

end Srui.Sessiond.TerminalPairs

import Srui.Sessiond.StaleMarks

/-!
A client whose queue has overflowed is resynced when it resumes, and once it has caught up no
marker is left, unless its queue overflows just as the connection clears the marker.
-/

namespace Srui.Sessiond.StaleClients

open Basic.Runs SemanticTree.Values SemanticTree.Limits SemanticTree.Stores
open SemanticTree.Transactions SemanticTree.Wire EventDedupe.Windows Sessiond.Sessions
open Sessiond.Outbound

/-- What a handshake has still to do before it subscribes, in critical sections. -/
def Stage.remaining : Stage → Nat
  | .starting optimisticAttempts =>
    2 * (maxOptimisticSnapshotExportAttempts - optimisticAttempts) + 2
  | .exporting _ _ optimisticAttempts =>
    2 * (maxOptimisticSnapshotExportAttempts - optimisticAttempts) + 1
  | _ => 0

theorem Stage.remaining_pos {stage : Stage} : 0 < stage.remaining ↔ stage.handle = none := by
  cases stage <;> simp [Stage.remaining, Stage.handle]

def Stage.isSettling : Stage → Bool
  | .settling _ => true
  | _ => false

namespace Server

variable {frameLen : WireTransaction → Nat} {c : Bytes} {s : Server}

variable {conn : Connection}

theorem connection_setConnection {k : Nat} (h : s.connection k = some conn)
    (next : Option Connection) (other : Nat) :
    (s.setConnection k next).connection other = if other = k then next else s.connection other := by
  have hk : k < s.connections.length := by
    unfold connection at h
    by_contra hout
    rw [List.getElem?_eq_none (Nat.le_of_not_lt hout)] at h
    simp at h
  unfold connection setConnection
  simp only [List.getElem?_set]
  split
  · rename_i heq
    subst heq
    simp
  · rename_i hne
    rw [if_neg (Ne.symm hne)]

def Owns (s : Server) (c : Bytes) (k : Nat) (conn : Connection) : Prop :=
  s.connection k = some conn ∧ conn.clientInstanceId = c

def OneConnection (c : Bytes) (s : Server) : Section → Prop
  | .connect clientInstanceId _ => clientInstanceId = c →
      ∀ conn ∈ s.connections.reduceOption, conn.clientInstanceId ≠ c
  | _ => True

/-- When the marker of a client is cleared, an overflow since `termination` was read is not
marked yet. -/
def Careful (c : Bytes) (s : Server) : Section → Prop
  | .clearStale k => ∀ conn ∈ s.connection k, conn.clientInstanceId = c →
      conn.stage.isSettling = true → s.latestOverflowed c = true →
      c ∈ s.staleMarked.map Prod.fst
  | _ => True

/-- What keeps the marker of a client in step with its latest subscription. -/
structure Sound (c : Bytes) (s : Server) : Prop where
  registry : WellFormed s.hub.staleClients
  tracked : ∀ id ∈ s.hub.staleClients.order, id ∈ s.overflowed
  pending : ∀ id ∈ s.staleMarked.map Prod.fst, id ∈ s.overflowed
  hubOpen : s.hub.isClosed = false
  subscribed : ∀ sub ∈ s.hub.subscribers, (s.hub.states sub.handle).staleReason = none
  held : ∀ sub ∈ s.hub.subscribers, sub.clientInstanceId = c →
    (s.hub.states sub.handle).isClosed = false →
    ∃ k conn, s.Owns c k conn ∧ conn.stage.handle = some sub.handle
  owner : ∀ sub ∈ s.hub.subscribers, s.latest c = some sub.handle → sub.clientInstanceId = c
  single : ∀ k other conn next, s.Owns c k conn → s.Owns c other next → k = other
  holds : ∀ k conn handle, s.Owns c k conn → conn.stage.handle = some handle →
    s.latest c = some handle ∧
      ((s.hub.states handle).isClosed = true → (s.hub.states handle).staleReason.isSome = true)
  foreign : ∀ k conn handle, s.connection k = some conn → conn.clientInstanceId ≠ c →
    conn.stage.handle = some handle → handle < s.hub.nextHandle ∧ s.latest c ≠ some handle
  known : ∀ handle, s.latest c = some handle →
    handle < s.hub.nextHandle ∧ s.outboundQueueCapacity ≠ 0
  marked : s.latestOverflowed c = true →
    s.isClientStale c = true ∨ c ∈ s.staleMarked.map Prod.fst
  justified : c ∈ s.staleMarked.map Prod.fst → s.latestOverflowed c = true
  clear : s.settled c = true → s.latestOverflowed c = false → s.isClientStale c = false
  replay : ∀ k conn handle, s.Owns c k conn → conn.stage = .delivering handle .replay →
    s.latestOverflowed c = false → s.isClientStale c = false

theorem latestOverflowed_of {handle : Nat} (hlatest : s.latest c = some handle) :
    s.latestOverflowed c = (s.hub.states handle).staleReason.isSome := by
  unfold latestOverflowed
  rw [hlatest]
  rfl

theorem exists_latest (h : s.latestOverflowed c = true) : ∃ handle, s.latest c = some handle ∧
    (s.hub.states handle).staleReason.isSome = true := by
  unfold latestOverflowed at h
  exact Option.any_eq_true _ _ |>.mp h

def dueCatchUp (s : Server) (conn : Connection) : CatchUp :=
  match conn.request with
  | .hello => .welcome
  | .resume sessionId lastAppliedRevision =>
    match s.determineResyncCause conn.clientInstanceId sessionId lastAppliedRevision with
    | none => .replay
    | some cause => .resync cause

/-- What a critical section of a handshake can do: fail to subscribe, go on with less to do, or
return what is due on a new subscription. -/
inductive Handshake (s : Server) (k : Nat) (conn : Connection) : Server → Prop where
  | fails (hcapacity : s.outboundQueueCapacity = 0) : Handshake s k conn (s.setConnection k none)
  | goesOn (stage : Stage) (hpos : 0 < stage.remaining)
      (hless : stage.remaining < conn.stage.remaining) :
      Handshake s k conn (s.setConnection k (some { conn with stage := stage }))
  | returns (hub : OutboundHub) (hsubscribed : Subscribed s.hub hub conn.clientInstanceId)
      (hcapacity : s.outboundQueueCapacity ≠ 0) :
      Handshake s k conn (s.deliver k conn (s.dueCatchUp conn) hub s.hub.nextHandle)

variable {catchUp : CatchUp}

section

variable (hopen : s.hub.isClosed = false)

include hopen

theorem subscribeClientLocked_handshake (k : Nat) (hdue : catchUp = s.dueCatchUp conn) :
    Handshake s k conn (s.subscribeClientLocked k conn catchUp) := by
  unfold subscribeClientLocked
  rcases subscribe_cases hopen conn.clientInstanceId s.outboundQueueCapacity
    s.maxTransactionOperations s.maxFrameSize with
    ⟨e, herror, hcapacity⟩ | ⟨hub, hok, hsubscribed, hcapacity⟩
  · rw [herror]
    exact .fails hcapacity
  · rw [hok, hdue]
    exact .returns hub hsubscribed hcapacity

theorem exportSnapshot_handshake (k : Nat) (hdue : catchUp = s.dueCatchUp conn)
    {optimisticAttempts : Nat} (hstage : conn.stage = .starting optimisticAttempts) :
    Handshake s k conn (s.exportSnapshot k conn catchUp optimisticAttempts) := by
  unfold exportSnapshot
  split
  · refine .goesOn _ ?_ ?_
    · simp [Stage.remaining]
    · simp [Stage.remaining, hstage]
  · exact subscribeClientLocked_handshake hopen k hdue

theorem useSnapshot_handshake (k : Nat) {current : Bool}
    (hdue : current = true → catchUp = s.dueCatchUp conn) {exported : CatchUp}
    {snapshotRevision : Revision} {optimisticAttempts : Fin maxOptimisticSnapshotExportAttempts}
    (hstage : conn.stage = .exporting exported snapshotRevision optimisticAttempts) :
    Handshake s k conn (s.useSnapshot k conn catchUp optimisticAttempts current) := by
  unfold useSnapshot
  split
  · rename_i hcurrent
    exact subscribeClientLocked_handshake hopen k (hdue hcurrent)
  · refine .goesOn _ ?_ ?_
    · simp [Stage.remaining]
    · have hattempts := optimisticAttempts.isLt
      simp only [Stage.remaining, hstage]
      omega

theorem bootstrap_handshake {k : Nat} (hconn : s.connection k = some conn)
    (hpos : 0 < conn.stage.remaining) :
    Handshake s k conn (s.bootstrap k) := by
  unfold bootstrap
  rw [hconn]
  simp only
  split
  · rename_i hrequest
    have hdue : CatchUp.welcome = s.dueCatchUp conn := by
      unfold dueCatchUp
      rw [hrequest]
    unfold bootstrapFreshClient
    split
    · rename_i hstage
      exact exportSnapshot_handshake hopen k hdue hstage
    · rename_i hstage
      exact useSnapshot_handshake hopen k (fun _ => hdue) hstage
    · rename_i hstarting hexporting
      cases hstage : conn.stage <;> simp_all [Stage.remaining]
  · rename_i sessionId lastAppliedRevision hrequest
    unfold bootstrapResume
    simp only
    have hdue : s.dueCatchUp conn = match s.determineResyncCause conn.clientInstanceId sessionId
        lastAppliedRevision with
      | none => .replay
      | some cause => .resync cause := by
      unfold dueCatchUp
      rw [hrequest]
    split
    · rename_i hstage
      split
      · rename_i hcause
        exact subscribeClientLocked_handshake hopen k (by rw [hdue, hcause])
      · rename_i cause hcause
        exact exportSnapshot_handshake hopen k (by rw [hdue, hcause]) hstage
    · rename_i hstage
      refine useSnapshot_handshake hopen k (fun hcurrent => ?_) hstage
      obtain ⟨cause, hcause, hexported⟩ :=
        Option.map_eq_some_iff.mp (of_decide_eq_true hcurrent).2
      rw [hdue, hcause]
      exact hexported.symm
    · rename_i hstarting hexporting
      cases hstage : conn.stage <;> simp_all [Stage.remaining]

end

theorem bootstrap_idle {k : Nat}
    (hidle : ∀ conn, s.connection k = some conn → conn.stage.remaining = 0) :
    s.bootstrap k = s := by
  unfold bootstrap
  split
  · rename_i conn hconn
    have hzero := hidle conn hconn
    unfold bootstrapFreshClient bootstrapResume
    cases hstage : conn.stage <;> rw [hstage] at hzero <;> simp [Stage.remaining] at hzero
    · split <;> rfl
    · split <;> rfl
    · split <;> rfl
  · rfl

namespace Sound

variable {conn : Connection} {k handle : Nat}

theorem withoutSubscription (h : s.Sound c)
    (hconn : s.connection k = some conn) (hnone : conn.stage.handle = none)
    {next : Option Connection} (hnext : ∀ n ∈ next,
      n.clientInstanceId = conn.clientInstanceId ∧ n.stage.handle = none) :
    (s.setConnection k next).Sound c := by
  have hlookup := connection_setConnection hconn next
  have howns : ∀ {other n}, (s.setConnection k next).Owns c other n →
      n.stage.handle = none ∧ other = k ∧ s.Owns c k conn ∨ s.Owns c other n := by
    rintro other n ⟨hother, hid⟩
    rw [hlookup] at hother
    split at hother
    · rename_i heq
      obtain ⟨hclient, hhandle⟩ := hnext n hother
      exact .inl ⟨hhandle, heq, hconn, hclient ▸ hid⟩
    · exact .inr ⟨hother, hid⟩
  refine { h with held := ?_, single := ?_, holds := ?_, foreign := ?_, replay := ?_ }
  · intro sub hsub hid hopen
    obtain ⟨other, n, ⟨hother, hclient⟩, hhandle⟩ := h.held sub hsub hid hopen
    refine ⟨other, n, ⟨?_, hclient⟩, hhandle⟩
    rw [hlookup, if_neg, hother]
    rintro rfl
    rw [hconn] at hother
    rw [← Option.some.inj hother, hnone] at hhandle
    simp at hhandle
  · intro first second n m hfirst hsecond
    rcases howns hfirst with ⟨-, hn, hk⟩ | hn
    · rcases howns hsecond with ⟨-, hm, -⟩ | hm
      · rw [hn, hm]
      · rw [hn]
        exact h.single _ _ _ _ hk hm
    · rcases howns hsecond with ⟨-, hm, hk⟩ | hm
      · rw [hm]
        exact h.single _ _ _ _ hn hk
      · exact h.single _ _ _ _ hn hm
  · intro other n handle hn hhandle
    rcases howns hn with ⟨hfree, -⟩ | hn
    · rw [hfree] at hhandle
      simp at hhandle
    · exact h.holds other n handle hn hhandle
  · intro other n handle hn hid hhandle
    rw [hlookup] at hn
    split at hn
    · rw [(hnext n hn).2] at hhandle
      simp at hhandle
    · exact h.foreign other n handle hn hid hhandle
  · intro other n handle hn hstage
    rcases howns hn with ⟨hfree, -⟩ | hn
    · rw [hstage] at hfree
      simp [Stage.handle] at hfree
    · exact h.replay other n handle hn hstage

theorem withSubscription (h : s.Sound c)
    (hconn : s.connection k = some conn) {stage : Stage}
    (hhandle : stage.handle = conn.stage.handle) (hreplay : ∀ n, stage ≠ .delivering n .replay) :
    (s.setConnection k (some { conn with stage := stage })).Sound c := by
  have hlookup := connection_setConnection hconn (some { conn with stage := stage })
  have hback : ∀ {other n},
      (s.setConnection k (some { conn with stage := stage })).connection other = some n →
      ∃ before, s.connection other = some before ∧
        before.clientInstanceId = n.clientInstanceId ∧ before.stage.handle = n.stage.handle := by
    intro other n hother
    rw [hlookup] at hother
    split at hother
    · rename_i heq
      obtain rfl := Option.some.inj hother
      exact ⟨conn, heq ▸ hconn, rfl, hhandle.symm⟩
    · exact ⟨n, hother, rfl, rfl⟩
  refine { h with held := ?_, single := ?_, holds := ?_, foreign := ?_, replay := ?_ }
  · intro sub hsub hid hopen
    obtain ⟨other, n, ⟨hother, hclient⟩, hheld⟩ := h.held sub hsub hid hopen
    rcases eq_or_ne other k with rfl | hne
    · rw [hconn] at hother
      obtain rfl := Option.some.inj hother
      refine ⟨other, { conn with stage := stage }, ⟨?_, hclient⟩, hhandle.trans hheld⟩
      rw [hlookup, if_pos rfl]
    · refine ⟨other, n, ⟨?_, hclient⟩, hheld⟩
      rw [hlookup, if_neg hne, hother]
  · rintro first second n m ⟨hfirst, hn⟩ ⟨hsecond, hm⟩
    obtain ⟨before, hbefore, hid, -⟩ := hback hfirst
    obtain ⟨after, hafter, hid', -⟩ := hback hsecond
    exact h.single first second before after ⟨hbefore, hid.trans hn⟩ ⟨hafter, hid'.trans hm⟩
  · rintro other n handle ⟨hother, hn⟩ hheld
    obtain ⟨before, hbefore, hid, hsame⟩ := hback hother
    exact h.holds other before handle ⟨hbefore, hid.trans hn⟩ (hsame.trans hheld)
  · intro other n handle hother hn hheld
    obtain ⟨before, hbefore, hid, hsame⟩ := hback hother
    exact h.foreign other before handle hbefore (hid ▸ hn) (hsame.trans hheld)
  · rintro other n handle ⟨hother, hn⟩ hstage
    rw [hlookup] at hother
    split at hother
    · obtain rfl := Option.some.inj hother
      exact absurd hstage (hreplay handle)
    · exact h.replay other n handle ⟨hother, hn⟩ hstage

theorem connect (h : s.Sound c) {id : Bytes} (request : Request)
    (hone : OneConnection c s (.connect id request)) :
    ({ s with connections := s.connections ++ [some ⟨id, request, .starting 0⟩] } :
      Server).Sound c := by
  have hlookup : ∀ {other n}, ({ s with
      connections := s.connections ++ [some ⟨id, request, .starting 0⟩] } :
        Server).connection other = some n →
      s.connection other = some n ∨
        other = s.connections.length ∧ n = ⟨id, request, .starting 0⟩ := by
    intro other n hother
    unfold connection at hother ⊢
    rcases lt_trichotomy other s.connections.length with hlt | heq | hgt
    · rw [List.getElem?_append_left hlt] at hother
      exact .inl hother
    · subst heq
      rw [List.getElem?_append_right (Nat.le_refl _), Nat.sub_self] at hother
      exact .inr ⟨rfl, (Option.some.inj hother).symm⟩
    · rw [List.getElem?_eq_none (by simp; omega)] at hother
      simp at hother
  have hkept : ∀ {other n}, s.connection other = some n → ({ s with
      connections := s.connections ++ [some ⟨id, request, .starting 0⟩] } :
        Server).connection other = some n := by
    intro other n hother
    have hlt : other < s.connections.length := by
      unfold connection at hother
      by_contra hout
      rw [List.getElem?_eq_none (Nat.le_of_not_lt hout)] at hother
      simp at hother
    unfold connection at hother ⊢
    rw [List.getElem?_append_left hlt]
    exact hother
  have hfree : id = c → ∀ other n, ¬s.Owns c other n := by
    rintro hid other n ⟨hother, hn⟩
    refine hone hid n ?_ hn
    unfold connection at hother
    rw [List.reduceOption_mem_iff]
    exact List.mem_of_getElem? (Option.join_eq_some_iff.mp hother)
  refine { h with held := ?_, single := ?_, holds := ?_, foreign := ?_, replay := ?_ }
  · intro sub hsub hid hopen
    obtain ⟨other, n, ⟨hother, hclient⟩, hheld⟩ := h.held sub hsub hid hopen
    exact ⟨other, n, ⟨hkept hother, hclient⟩, hheld⟩
  · rintro first second n m ⟨hfirst, hn⟩ ⟨hsecond, hm⟩
    rcases hlookup hfirst with hfirst | ⟨hnew, rfl⟩
    · rcases hlookup hsecond with hsecond | ⟨-, rfl⟩
      · exact h.single first second n m ⟨hfirst, hn⟩ ⟨hsecond, hm⟩
      · exact absurd ⟨hfirst, hn⟩ (hfree hm first n)
    · rcases hlookup hsecond with hsecond | ⟨hnew', -⟩
      · exact absurd ⟨hsecond, hm⟩ (hfree hn second m)
      · rw [hnew, hnew']
  · rintro other n handle ⟨hother, hn⟩ hheld
    rcases hlookup hother with hother | ⟨-, rfl⟩
    · exact h.holds other n handle ⟨hother, hn⟩ hheld
    · simp [Stage.handle] at hheld
  · intro other n handle hother hn hheld
    rcases hlookup hother with hother | ⟨-, rfl⟩
    · exact h.foreign other n handle hother hn hheld
    · simp [Stage.handle] at hheld
  · rintro other n handle ⟨hother, hn⟩ hstage
    rcases hlookup hother with hother | ⟨-, rfl⟩
    · exact h.replay other n handle ⟨hother, hn⟩ hstage
    · simp at hstage

theorem latestOverflowed_setState (c : Bytes) {state : SubscriberState}
    (hstale : state.staleReason = (s.hub.states handle).staleReason) :
    (s.setState handle state).latestOverflowed c = s.latestOverflowed c := by
  unfold latestOverflowed
  refine congrArg (fun P => (s.latest c).any P) ?_
  funext other
  change (Function.update s.hub.states handle state other).staleReason.isSome = _
  rcases eq_or_ne other handle with rfl | hne
  · rw [Function.update_self, hstale]
  · rw [Function.update_of_ne hne]

section

variable (h : s.Sound c)

include h

theorem setState {state : SubscriberState}
    (hstale : state.staleReason = (s.hub.states handle).staleReason)
    (hclosed : state.isClosed = (s.hub.states handle).isClosed) :
    (s.setState handle state).Sound c := by
  have hstates : ∀ other,
      ((s.setState handle state).hub.states other).staleReason =
        (s.hub.states other).staleReason ∧
      ((s.setState handle state).hub.states other).isClosed = (s.hub.states other).isClosed := by
    intro other
    unfold Server.setState
    rcases eq_or_ne other handle with rfl | hne
    · simp only [Function.update_self]
      exact ⟨hstale, hclosed⟩
    · simp only [Function.update_of_ne hne, and_self]
  have hover := latestOverflowed_setState c hstale
  refine { h with subscribed := ?_, held := ?_, holds := ?_, marked := ?_, justified := ?_,
                  clear := ?_, replay := ?_ }
  · intro sub hsub
    rw [(hstates _).1]
    exact h.subscribed sub hsub
  · intro sub hsub hid hopen
    rw [(hstates _).2] at hopen
    exact h.held sub hsub hid hopen
  · intro k conn other hown hheld
    rw [(hstates _).1, (hstates _).2]
    exact h.holds k conn other hown hheld
  · rw [hover]
    exact h.marked
  · rw [hover]
    exact h.justified
  · rw [hover]
    exact h.clear
  · rw [hover]
    exact h.replay

theorem take (k : Nat) : (s.take k).Sound c := by
  unfold Server.take
  split
  · split
    · split
      · exact h
      · rename_i handle _ _
        refine h.setState ?_ ?_
        all_goals
          unfold popTransaction
          split <;> rfl
    · exact h
  · exact h

theorem dropReceiver (hconn : s.connection k = some conn) (hheld : conn.stage.handle = some handle) :
    ({ s.setState handle (Outbound.clear { s.hub.states handle with isClosed := true }) with
      dropped := s.dropped ++ [handle] }.setConnection k none).Sound c := by
  have hlookup := connection_setConnection hconn none
  have hother : ∀ {other n}, (if other = k then none else s.connection other) = some n →
      other ≠ k ∧ s.connection other = some n := by
    intro other n hn
    split at hn
    · simp at hn
    · rename_i hne
      exact ⟨hne, hn⟩
  have hstale : ∀ other, (Function.update s.hub.states handle
      (Outbound.clear { s.hub.states handle with isClosed := true }) other).staleReason =
      (s.hub.states other).staleReason := by
    intro other
    rcases eq_or_ne other handle with rfl | hne
    · rw [Function.update_self]
      rfl
    · rw [Function.update_of_ne hne]
  -- no other connection of the client holds the subscription that ends
  have hapart : ∀ other n held, other ≠ k → s.Owns c other n → n.stage.handle = some held →
      held ≠ handle := by
    rintro other n held hne hown hn rfl
    by_cases hid : conn.clientInstanceId = c
    · exact hne (h.single other k n conn hown ⟨hconn, hid⟩)
    · exact (h.foreign k conn held hconn hid hheld).2 (h.holds other n held hown hn).1
  have hover : ({ s.setState handle (Outbound.clear { s.hub.states handle with isClosed := true })
      with dropped := s.dropped ++ [handle] }.setConnection k none).latestOverflowed c =
        s.latestOverflowed c := latestOverflowed_setState c rfl
  refine { h with subscribed := ?_, held := ?_, single := ?_, holds := ?_, foreign := ?_,
                  marked := ?_, justified := ?_, clear := ?_, replay := ?_ }
  · intro sub hsub
    exact (hstale sub.handle).trans (h.subscribed sub hsub)
  · intro sub hsub hid hopen
    change (Function.update s.hub.states handle _ sub.handle).isClosed = false at hopen
    have hne : sub.handle ≠ handle := by
      intro heq
      rw [heq, Function.update_self] at hopen
      simp [Outbound.clear] at hopen
    rw [Function.update_of_ne hne] at hopen
    obtain ⟨other, n, ⟨hn, hclient⟩, hsame⟩ := h.held sub hsub hid hopen
    refine ⟨other, n, ⟨?_, hclient⟩, hsame⟩
    refine (hlookup other).trans ?_
    rw [if_neg, hn]
    rintro rfl
    rw [hconn] at hn
    rw [← Option.some.inj hn, hheld] at hsame
    exact hne (Option.some.inj hsame).symm
  · rintro first second n m ⟨hfirst, hn⟩ ⟨hsecond, hm⟩
    have hfirst := hother ((hlookup first).symm.trans hfirst)
    have hsecond := hother ((hlookup second).symm.trans hsecond)
    exact h.single first second n m ⟨hfirst.2, hn⟩ ⟨hsecond.2, hm⟩
  · rintro other n held ⟨hn, hid⟩ hsame
    obtain ⟨hne, hn⟩ := hother ((hlookup other).symm.trans hn)
    have hheld' := h.holds other n held ⟨hn, hid⟩ hsame
    refine ⟨hheld'.1, ?_⟩
    change (Function.update s.hub.states handle _ held).isClosed = true →
      (Function.update s.hub.states handle _ held).staleReason.isSome = true
    rw [Function.update_of_ne (hapart other n held hne ⟨hn, hid⟩ hsame)]
    exact hheld'.2
  · intro other n held hn hid hsame
    exact h.foreign other n held (hother ((hlookup other).symm.trans hn)).2 hid hsame
  · rw [hover]
    exact h.marked
  · rw [hover]
    exact h.justified
  · rw [hover]
    exact h.clear
  · rintro other n held ⟨hn, hid⟩ hstage
    rw [hover]
    exact h.replay other n held ⟨(hother ((hlookup other).symm.trans hn)).2, hid⟩ hstage

theorem drop (k : Nat) : (s.drop k).Sound c := by
  unfold Server.drop
  split
  · rename_i conn hconn
    split
    · rename_i handle catchUp hstage
      exact h.dropReceiver hconn (by rw [hstage]; rfl)
    · rename_i handle hstage
      exact h.dropReceiver hconn (by rw [hstage]; rfl)
    · exact h
  · exact h

theorem closeNotify (handle : Nat) : (s.closeNotify handle).Sound c := by
  unfold Server.closeNotify
  split
  · refine { h with subscribed := ?_, held := ?_, owner := ?_ }
    · intro sub hsub
      obtain ⟨before, hbefore, rfl⟩ := List.mem_map.mp hsub
      rw [closeSubscriber_handle]
      exact h.subscribed before hbefore
    · intro sub hsub hid hopen
      obtain ⟨before, hbefore, rfl⟩ := List.mem_map.mp hsub
      rw [closeSubscriber_handle] at hopen ⊢
      rw [closeSubscriber_clientInstanceId] at hid
      exact h.held before hbefore hid hopen
    · intro sub hsub hlatest
      obtain ⟨before, hbefore, rfl⟩ := List.mem_map.mp hsub
      rw [closeSubscriber_handle] at hlatest
      rw [closeSubscriber_clientInstanceId]
      exact h.owner before hbefore hlatest
  · exact h

theorem markStale (hfew : s.overflowed.card < maxTrackedStaleClients) :
    s.markStale.Sound c := by
  obtain ⟨hregistry, htracked, hheld⟩ :=
    h.registry.markAll h.tracked hfew s.staleMarked fun entry hentry =>
      h.pending entry.1 (List.mem_map_of_mem hentry)
  have hquiet : s.latestOverflowed c = false → s.isClientStale c = false →
      s.markStale.isClientStale c = false := by
    intro hnone hclear
    refine Bool.eq_false_iff.mpr fun hstale => ?_
    rcases (hheld c).mp hstale with hpending | hbefore
    · rw [h.justified hpending] at hnone
      simp at hnone
    · exact absurd hbefore (Bool.eq_false_iff.mp hclear)
  refine { h with registry := hregistry, tracked := htracked, pending := ?_, marked := ?_,
                  justified := ?_, clear := ?_, replay := ?_ }
  · intro id hid
    simp [Server.markStale] at hid
  · intro hover
    refine .inl ((hheld c).mpr ?_)
    rcases h.marked hover with hstale | hpending
    · exact .inr hstale
    · exact .inl hpending
  · intro hpending
    simp [Server.markStale] at hpending
  · intro hsettled hnone
    exact hquiet hnone (h.clear hsettled hnone)
  · intro k conn handle hown hstage hnone
    exact hquiet hnone (h.replay k conn handle hown hstage hnone)

theorem serve (hconn : s.connection k = some conn) (hhandle : conn.stage.handle = some handle)
    (hclear : conn.clientInstanceId = c → s.latestOverflowed c = false →
      s.isClientStale c = false) : (s.serve k conn handle).Sound c := by
  have hsettle : ({ s with
      settled := Function.update s.settled conn.clientInstanceId true } : Server).Sound c := by
    refine { h with clear := ?_ }
    intro hsettled hnone
    by_cases hid : conn.clientInstanceId = c
    · exact hclear hid hnone
    · refine h.clear ?_ hnone
      simp only [Function.update_of_ne (Ne.symm hid)] at hsettled
      exact hsettled
  exact hsettle.withSubscription hconn hhandle.symm fun n hn => by simp at hn

theorem finishCatchUp (k : Nat) : (s.finishCatchUp k).Sound c := by
  unfold Server.finishCatchUp
  split
  · rename_i conn hconn
    split
    · rename_i handle catchUp hstage
      have hhandle : conn.stage.handle = some handle := by rw [hstage]; rfl
      simp only
      split
      · exact h.withSubscription hconn hhandle.symm fun n hn => by simp at hn
      · rename_i hnot
        refine h.serve hconn hhandle fun hid hnone => ?_
        obtain ⟨hlatest, hclosed⟩ := h.holds k conn handle ⟨hconn, hid⟩ hhandle
        rw [latestOverflowed_of hlatest] at hnone
        by_cases hreplay : catchUp = .replay
        · rw [hreplay] at hstage
          exact h.replay k conn handle ⟨hconn, hid⟩ hstage (by rwa [latestOverflowed_of hlatest])
        · -- the subscription has ended, so it has overflowed
          have hreason := Option.isNone_iff_eq_none.mp (Option.isSome_eq_false_iff.mp hnone)
          refine absurd ⟨hreplay, hreason, ?_⟩ hnot
          refine Bool.eq_false_iff.mpr fun hends => ?_
          rw [hclosed hends] at hnone
          simp at hnone
    · exact h
  · exact h

theorem clearStale (hcareful : Careful c s (.clearStale k)) :
    (s.clearStale k).Sound c := by
  unfold Server.clearStale
  split
  · rename_i conn hconn
    split
    · rename_i handle hstage
      obtain ⟨hregistry, hheld⟩ := h.registry.clearClient conn.clientInstanceId
      have hcleared : ({ s with hub := { s.hub with
          staleClients := clearClient s.hub.staleClients conn.clientInstanceId } } :
            Server).Sound c := by
        refine { h with registry := hregistry, tracked := ?_, marked := ?_, clear := ?_,
                        replay := ?_ }
        · intro id hid
          refine h.tracked id ((h.registry.tracked id).mpr ?_)
          exact ((hheld id).mp ((hregistry.tracked id).mp hid)).2
        · intro hover
          rcases h.marked hover with hstale | hpending
          · by_cases hid : conn.clientInstanceId = c
            · exact .inr (hcareful conn hconn hid (by rw [hstage]; rfl) hover)
            · exact .inl ((hheld c).mpr ⟨Ne.symm hid, hstale⟩)
          · exact .inr hpending
        · intro hsettled hnone
          refine Bool.eq_false_iff.mpr fun hstale => ?_
          exact Bool.eq_false_iff.mp (h.clear hsettled hnone) ((hheld c).mp hstale).2
        · intro other n m hown hreplay hnone
          refine Bool.eq_false_iff.mpr fun hstale => ?_
          exact Bool.eq_false_iff.mp (h.replay other n m hown hreplay hnone)
            ((hheld c).mp hstale).2
      refine hcleared.serve hconn (by rw [hstage]; rfl) fun hid _ => ?_
      refine Bool.eq_false_iff.mpr fun hstale => ?_
      exact ((hheld c).mp hstale).1 hid.symm
    · exact h
  · exact h

end

theorem connection_deliver (hconn : s.connection k = some conn)
    (catchUp : CatchUp) (hub : OutboundHub) (handle other : Nat) (n : Connection)
    (hn : (s.deliver k conn catchUp hub handle).connection other = some n) :
    other = k ∧ n = { conn with stage := .delivering handle catchUp } ∨
      other ≠ k ∧ s.connection other = some n := by
  have hlookup := connection_setConnection hconn
    (some { conn with stage := .delivering handle catchUp }) other
  have hsame := hlookup.symm.trans hn
  split at hsame
  · rename_i heq
    exact .inl ⟨heq, (Option.some.inj hsame).symm⟩
  · rename_i hne
    exact .inr ⟨hne, hsame⟩

variable {hub : OutboundHub}

theorem subscribed_after (h : s.Sound c) {id : Bytes} (hsubscribed : Subscribed s.hub hub id) :
    ∀ sub ∈ hub.subscribers, (hub.states sub.handle).staleReason = none := by
  intro sub hsub
  rcases hsubscribed.subscribers sub hsub with hold | ⟨hhandle, -⟩
  · rw [hsubscribed.states sub.handle (s.hub.fresh sub hold)]
    exact h.subscribed sub hold
  · rw [hhandle]
    exact hsubscribed.staleReason

theorem deliverOwn (h : s.Sound c)
    (hown : s.Owns c k conn) (hnone : conn.stage.handle = none) (hfree : s.staleMarked = [])
    {catchUp : CatchUp} (hreplay : catchUp = .replay → s.isClientStale c = false)
    (hsubscribed : Subscribed s.hub hub c)
    (hcapacity : s.outboundQueueCapacity ≠ 0) :
    (s.deliver k conn catchUp hub s.hub.nextHandle).Sound c := by
  obtain ⟨hconn, hid⟩ := hown
  have hback := connection_deliver hconn catchUp hub s.hub.nextHandle
  have honly : ∀ other n, other ≠ k → ¬s.Owns c other n := fun other n hne hother =>
    hne (h.single other k n conn hother ⟨hconn, hid⟩)
  have hlatest : (s.deliver k conn catchUp hub s.hub.nextHandle).latest c =
      some s.hub.nextHandle := by
    change Function.update s.latest conn.clientInstanceId _ c = _
    rw [hid, Function.update_self]
  have hquiet : (s.deliver k conn catchUp hub s.hub.nextHandle).latestOverflowed c = false := by
    rw [latestOverflowed_of hlatest]
    exact Option.isSome_eq_false_iff.mpr (Option.isNone_iff_eq_none.mpr hsubscribed.staleReason)
  constructor
  case registry => exact hsubscribed.staleClients ▸ h.registry
  case tracked => exact hsubscribed.staleClients ▸ h.tracked
  case pending => exact h.pending
  case hubOpen => exact hsubscribed.isClosed.trans h.hubOpen
  case subscribed => exact h.subscribed_after hsubscribed
  case held =>
    intro sub hsub hclient hopen
    rcases hsubscribed.subscribers sub hsub with hold | ⟨hhandle, -⟩
    · change (hub.states sub.handle).isClosed = false at hopen
      rw [hsubscribed.states sub.handle (s.hub.fresh sub hold)] at hopen
      obtain ⟨other, n, hother, hheld⟩ := h.held sub hold hclient hopen
      obtain rfl := h.single other k n conn hother ⟨hconn, hid⟩
      obtain rfl := Option.some.inj (hother.1.symm.trans hconn)
      rw [hnone] at hheld
      simp at hheld
    · refine ⟨k, { conn with stage := .delivering s.hub.nextHandle catchUp }, ⟨?_, hid⟩, ?_⟩
      · exact (connection_setConnection hconn _ k).trans (if_pos rfl)
      · rw [hhandle]
        rfl
  case owner =>
    intro sub hsub hheld
    rcases hsubscribed.subscribers sub hsub with hold | ⟨-, hclient⟩
    · rw [hlatest] at hheld
      exact absurd (Option.some.inj hheld) (Nat.ne_of_gt (s.hub.fresh sub hold))
    · exact hclient
  case single =>
    rintro first second n m ⟨hfirst, hn⟩ ⟨hsecond, hm⟩
    rcases hback first n hfirst with ⟨heq, -⟩ | ⟨hne, hfirst⟩
    · rcases hback second m hsecond with ⟨heq', -⟩ | ⟨hne, hsecond⟩
      · rw [heq, heq']
      · exact absurd ⟨hsecond, hm⟩ (honly second m hne)
    · exact absurd ⟨hfirst, hn⟩ (honly first n hne)
  case holds =>
    rintro other n handle ⟨hother, hn⟩ hheld
    rcases hback other n hother with ⟨-, rfl⟩ | ⟨hne, hother⟩
    · obtain rfl : s.hub.nextHandle = handle := Option.some.inj hheld
      refine ⟨hlatest, fun hclosed => ?_⟩
      have hopened : ((s.deliver k conn catchUp hub s.hub.nextHandle).hub.states
          s.hub.nextHandle).isClosed = false := hsubscribed.opened
      rw [hopened] at hclosed
      simp at hclosed
    · exact absurd ⟨hother, hn⟩ (honly other n hne)
  case foreign =>
    intro other n handle hother hn hheld
    rcases hback other n hother with ⟨-, rfl⟩ | ⟨-, hother⟩
    · exact absurd hid hn
    · have hlt := (h.foreign other n handle hother hn hheld).1
      refine ⟨?_, ?_⟩
      · exact Nat.lt_of_lt_of_eq (Nat.lt_succ_of_lt hlt) hsubscribed.nextHandle.symm
      · rw [hlatest]
        intro heq
        exact absurd (Option.some.inj heq) (Nat.ne_of_gt hlt)
  case known =>
    intro handle hheld
    rw [hlatest] at hheld
    obtain rfl := Option.some.inj hheld
    exact ⟨Nat.lt_of_lt_of_eq (Nat.lt_succ_self _) hsubscribed.nextHandle.symm, hcapacity⟩
  case marked =>
    intro hover
    rw [hquiet] at hover
    simp at hover
  case justified =>
    intro hpending
    change c ∈ s.staleMarked.map Prod.fst at hpending
    rw [hfree] at hpending
    simp at hpending
  case clear =>
    intro hsettled
    change Function.update s.settled conn.clientInstanceId false c = true at hsettled
    rw [hid, Function.update_self] at hsettled
    simp at hsettled
  case replay =>
    rintro other n handle ⟨hother, hn⟩ hstage -
    rcases hback other n hother with ⟨-, rfl⟩ | ⟨hne, hother⟩
    · change contains hub.staleClients c = false
      rw [hsubscribed.staleClients]
      refine hreplay ?_
      simp only [Stage.delivering.injEq] at hstage
      exact hstage.2
    · exact absurd ⟨hother, hn⟩ (honly other n hne)

theorem latestOverflowed_deliver (h : s.Sound c) (k : Nat)
    (hid : conn.clientInstanceId ≠ c) (catchUp : CatchUp)
    (hsubscribed : Subscribed s.hub hub conn.clientInstanceId) :
    (s.deliver k conn catchUp hub s.hub.nextHandle).latestOverflowed c = s.latestOverflowed c := by
  have hlatest : (s.deliver k conn catchUp hub s.hub.nextHandle).latest c = s.latest c :=
    Function.update_of_ne (Ne.symm hid) _ _
  cases hheld : s.latest c with
  | none =>
    unfold latestOverflowed
    rw [hlatest, hheld]
    rfl
  | some handle =>
    rw [latestOverflowed_of (hlatest.trans hheld), latestOverflowed_of hheld]
    exact congrArg (fun state => state.staleReason.isSome)
      (hsubscribed.states handle (h.known handle hheld).1)

theorem deliverOther (h : s.Sound c)
    (hconn : s.connection k = some conn) (hid : conn.clientInstanceId ≠ c)
    (catchUp : CatchUp)
    (hsubscribed : Subscribed s.hub hub conn.clientInstanceId) :
    (s.deliver k conn catchUp hub s.hub.nextHandle).Sound c := by
  have hback := connection_deliver hconn catchUp hub s.hub.nextHandle
  have howns : ∀ other n, (s.deliver k conn catchUp hub s.hub.nextHandle).Owns c other n →
      s.Owns c other n := by
    rintro other n ⟨hother, hn⟩
    rcases hback other n hother with ⟨-, rfl⟩ | ⟨-, hother⟩
    · exact absurd hn hid
    · exact ⟨hother, hn⟩
  have hlatest : (s.deliver k conn catchUp hub s.hub.nextHandle).latest c = s.latest c :=
    Function.update_of_ne (Ne.symm hid) _ _
  have hstates : ∀ handle, s.latest c = some handle →
      hub.states handle = s.hub.states handle := fun handle hheld =>
    hsubscribed.states handle (h.known handle hheld).1
  have hover := h.latestOverflowed_deliver k hid catchUp hsubscribed
  have hstale : (s.deliver k conn catchUp hub s.hub.nextHandle).isClientStale c =
      s.isClientStale c := congrArg (contains · c) hsubscribed.staleClients
  constructor
  case registry => exact hsubscribed.staleClients ▸ h.registry
  case tracked => exact hsubscribed.staleClients ▸ h.tracked
  case pending => exact h.pending
  case hubOpen => exact hsubscribed.isClosed.trans h.hubOpen
  case subscribed => exact h.subscribed_after hsubscribed
  case held =>
    intro sub hsub hclient hopen
    rcases hsubscribed.subscribers sub hsub with hold | ⟨-, hnew⟩
    · change (hub.states sub.handle).isClosed = false at hopen
      rw [hsubscribed.states sub.handle (s.hub.fresh sub hold)] at hopen
      obtain ⟨other, n, ⟨hother, hn⟩, hheld⟩ := h.held sub hold hclient hopen
      refine ⟨other, n, ⟨?_, hn⟩, hheld⟩
      refine (connection_setConnection hconn _ other).trans ?_
      rw [if_neg, hother]
      rintro rfl
      rw [Option.some.inj (hconn.symm.trans hother)] at hid
      exact hid hn
    · exact absurd (hnew.symm.trans hclient) hid
  case owner =>
    intro sub hsub hheld
    rw [hlatest] at hheld
    rcases hsubscribed.subscribers sub hsub with hold | ⟨hhandle, -⟩
    · exact h.owner sub hold hheld
    · have hlt := (h.known sub.handle hheld).1
      rw [hhandle] at hlt
      exact absurd hlt (Nat.lt_irrefl _)
  case single =>
    intro first second n m hfirst hsecond
    exact h.single first second n m (howns first n hfirst) (howns second m hsecond)
  case holds =>
    intro other n handle hother hheld
    obtain ⟨hhandle, hclosed⟩ := h.holds other n handle (howns other n hother) hheld
    refine ⟨hlatest.trans hhandle, ?_⟩
    change (hub.states handle).isClosed = true → (hub.states handle).staleReason.isSome = true
    rw [hstates handle hhandle]
    exact hclosed
  case foreign =>
    intro other n handle hother hn hheld
    rw [hlatest]
    rcases hback other n hother with ⟨-, rfl⟩ | ⟨-, hother⟩
    · obtain rfl : s.hub.nextHandle = handle := Option.some.inj hheld
      refine ⟨Nat.lt_of_lt_of_eq (Nat.lt_succ_self _) hsubscribed.nextHandle.symm, ?_⟩
      intro heq
      exact absurd (h.known _ heq).1 (Nat.lt_irrefl _)
    · obtain ⟨hlt, hne⟩ := h.foreign other n handle hother hn hheld
      exact ⟨Nat.lt_of_lt_of_eq (Nat.lt_succ_of_lt hlt) hsubscribed.nextHandle.symm, hne⟩
  case known =>
    intro handle hheld
    obtain ⟨hlt, hcapacity⟩ := h.known handle (hlatest.symm.trans hheld)
    exact ⟨Nat.lt_of_lt_of_eq (Nat.lt_succ_of_lt hlt) hsubscribed.nextHandle.symm, hcapacity⟩
  case marked =>
    rw [hover, hstale]
    exact h.marked
  case justified =>
    rw [hover]
    exact h.justified
  case clear =>
    rw [hover, hstale]
    intro hsettled
    refine h.clear ?_
    change Function.update s.settled conn.clientInstanceId false c = true at hsettled
    rwa [Function.update_of_ne (Ne.symm hid)] at hsettled
  case replay =>
    intro other n handle hother hstage
    rw [hover, hstale]
    exact h.replay other n handle (howns other n hother) hstage

theorem isClientStale_of_replay (h : s.dueCatchUp conn = .replay) :
    s.isClientStale conn.clientInstanceId = false := by
  by_contra hstale
  rw [Bool.not_eq_false] at hstale
  unfold dueCatchUp determineResyncCause at h
  simp only [hstale, if_true] at h
  cases hrequest : conn.request with
  | hello => simp [hrequest] at h
  | resume sessionId lastAppliedRevision =>
    by_cases hsession : sessionId = s.sessionId <;> simp [hrequest, hsession] at h

theorem bootstrap (h : s.Sound c) (hfree : s.staleMarked = []) (k : Nat) :
    (s.bootstrap k).Sound c := by
  by_cases hbusy : ∃ conn, s.connection k = some conn ∧ 0 < conn.stage.remaining
  · obtain ⟨conn, hconn, hpos⟩ := hbusy
    have hnone := Stage.remaining_pos.mp hpos
    have hshake := bootstrap_handshake h.hubOpen hconn hpos
    generalize s.bootstrap k = next at hshake ⊢
    cases hshake with
    | fails hcapacity => exact h.withoutSubscription hconn hnone (by simp)
    | goesOn stage hless hremaining =>
      refine h.withoutSubscription hconn hnone ?_
      rintro n ⟨⟩
      exact ⟨rfl, Stage.remaining_pos.mp hless⟩
    | returns hub hsubscribed hcapacity =>
      by_cases hid : conn.clientInstanceId = c
      · rw [hid] at hsubscribed
        exact h.deliverOwn ⟨hconn, hid⟩ hnone hfree
          (fun hreplay => hid ▸ isClientStale_of_replay hreplay) hsubscribed hcapacity
      · exact h.deliverOther hconn hid _ hsubscribed
  · rw [bootstrap_idle]
    · exact h
    · intro conn hconn
      by_contra hpos
      exact hbusy ⟨conn, hconn, Nat.pos_of_ne_zero hpos⟩

theorem refuse (h : s.Sound c) (k : Nat) : (s.refuse k).Sound c := by
  unfold Server.refuse
  split
  · rename_i conn hconn
    split
    · rename_i hnone
      exact h.withoutSubscription hconn hnone (by simp)
    · exact h
  · exact h

variable {tx : WireTransaction}

theorem published_cases {frameLen : WireTransaction → Nat} {subs : List Subscriber}
    {before after : PublishPass} (h : Published frameLen tx subs before after)
    (hstale : (before.states handle).staleReason = none) :
    (after.states handle).staleReason = none ∧
        (after.states handle).isClosed = (before.states handle).isClosed ∨
      (after.states handle).staleReason.isSome = true ∧
        ∃ sub ∈ subs, sub.handle = handle ∧ Lags frameLen tx before.states sub := by
  rcases h.states handle with hsame | ⟨sub, hsub, rfl, hlive, hoffer⟩
  · rw [hsame]
    exact .inl ⟨hstale, rfl⟩
  rw [hoffer]
  rcases offer_cases frameLen tx hstale with htakes | ⟨-, hoverflows⟩ | ⟨-, hclosed⟩
  · exact .inl ⟨htakes.staleReason.trans hstale, htakes.isClosed⟩
  · exact .inr ⟨hoverflows.staleReason, sub, hsub, rfl, hlive, hoverflows.lagged⟩
  · rw [hclosed]
    exact .inl ⟨hstale, rfl⟩

theorem published_gone {frameLen : WireTransaction → Nat} {subs : List Subscriber}
    {before after : PublishPass} (h : Published frameLen tx subs before after)
    (hsubs : ∀ sub ∈ subs, (before.states sub.handle).staleReason = none)
    (hstale : (before.states handle).staleReason.isSome = true) :
    after.states handle = before.states handle := by
  rcases h.states handle with hsame | ⟨sub, hsub, rfl, -, -⟩
  · exact hsame
  · rw [hsubs sub hsub] at hstale
    simp at hstale

theorem publishCommit_eq (h : s.Sound c) (frameLen : WireTransaction → Nat) (session : Session)
    (tx : WireTransaction) : ∃ hub pass,
      Published frameLen tx s.hub.subscribers ⟨s.hub.states, [], []⟩ pass ∧
      s.publishCommit frameLen session tx = { s with
        session := session
        hub := hub
        staleMarked := pass.staleMarked
        overflowed := s.overflowed ∪ (pass.staleMarked.map Prod.fst).toFinset } ∧
      hub.subscribers = pass.kept ∧ hub.states = pass.states ∧ hub.isClosed = false ∧
      hub.nextHandle = s.hub.nextHandle ∧ hub.staleClients = s.hub.staleClients := by
  unfold Server.publishCommit publishSubscribers
  rw [if_neg (by simp [h.hubOpen])]
  exact ⟨_, publishPass frameLen s.hub tx, publishAll_published s.hub.distinct _, rfl, rfl, rfl,
    h.hubOpen, rfl, rfl⟩

theorem latestOverflowed_publishCommit (h : s.Sound c) (frameLen : WireTransaction → Nat)
    (session : Session) (tx : WireTransaction) (hover : s.latestOverflowed c = true) :
    (s.publishCommit frameLen session tx).latestOverflowed c = true := by
  obtain ⟨hub, pass, hpass, hcommit, -, hstates, -⟩ := h.publishCommit_eq frameLen session tx
  obtain ⟨handle, hlatest, hstale⟩ := exists_latest hover
  rw [hcommit]
  change ((s.latest c).any fun handle => (hub.states handle).staleReason.isSome) = true
  rw [hlatest, Option.any_some, hstates, published_gone hpass h.subscribed hstale]
  exact hstale

theorem kept_subscriber (h : s.Sound c) {pass : PublishPass}
    (hpass : Published frameLen tx s.hub.subscribers ⟨s.hub.states, [], []⟩ pass) {sub : Subscriber}
    (hsub : sub ∈ pass.kept) :
    sub ∈ s.hub.subscribers ∧ (pass.states sub.handle).staleReason = none ∧
      ((pass.states sub.handle).isClosed = false → (s.hub.states sub.handle).isClosed = false) := by
  rcases hpass.kept sub hsub with hnil | ⟨hmem, grown, hgrown⟩
  · simp at hnil
  refine ⟨hmem, ?_⟩
  rcases published_cases hpass (h.subscribed sub hmem) with
    ⟨hnone, hsame⟩ | ⟨-, other, -, hhandle, -, reason, hlagged⟩
  · exact ⟨hnone, hsame.symm.trans⟩
  · rw [hhandle] at hlagged
    exact absurd (hlagged.symm.trans hgrown) (by simp)

theorem lagging_subscriber (h : s.Sound c) {pass : PublishPass}
    (hpass : Published frameLen tx s.hub.subscribers ⟨s.hub.states, [], []⟩ pass) {sub : Subscriber}
    (hsub : sub ∈ s.hub.subscribers) (hlags : Lags frameLen tx s.hub.states sub) :
    (pass.states sub.handle).staleReason.isSome = true ∧
      (s.hub.states sub.handle).isClosed = false := by
  obtain ⟨_, reason, hlagged⟩ := id hlags
  rw [hpass.lagged sub hsub hlags]
  change (offer frameLen tx (s.hub.states sub.handle)).1.staleReason.isSome = true ∧ _
  rcases offer_cases frameLen tx (h.subscribed sub hsub) with
    ⟨⟨grown, hgrown⟩, -, -⟩ | ⟨hopened, hoverflows⟩ | ⟨-, hoffer⟩
  · exact absurd (hgrown.symm.trans hlagged) (by simp)
  · exact ⟨hoverflows.staleReason, hopened⟩
  · change (offer frameLen tx (s.hub.states sub.handle)).2 = .error (.lagged reason) at hlagged
    rw [hoffer] at hlagged
    simp at hlagged

theorem publishCommit (h : s.Sound c) (hfree : s.staleMarked = []) (session : Session)
    (tx : WireTransaction) : (s.publishCommit frameLen session tx).Sound c := by
  have hstays := h.latestOverflowed_publishCommit frameLen session tx
  obtain ⟨hub, pass, hpass, hcommit, hkept, hstates, hopen, hnext, hregistry⟩ :=
    h.publishCommit_eq frameLen session tx
  rw [hcommit] at hstays ⊢
  have hnow : ∀ handle, (s.hub.states handle).staleReason.isSome = false →
      (hub.states handle).staleReason = none ∧
          (hub.states handle).isClosed = (s.hub.states handle).isClosed ∨
        (hub.states handle).staleReason.isSome = true ∧ ∃ sub ∈ s.hub.subscribers,
          sub.handle = handle ∧ Lags frameLen tx s.hub.states sub := by
    intro handle hnone
    rw [hstates]
    refine published_cases hpass ?_
    exact Option.isNone_iff_eq_none.mp (Option.isSome_eq_false_iff.mp hnone)
  have hkept : ∀ sub ∈ hub.subscribers, sub ∈ s.hub.subscribers ∧
      (hub.states sub.handle).staleReason = none ∧
        ((hub.states sub.handle).isClosed = false →
          (s.hub.states sub.handle).isClosed = false) := by
    rw [hkept, hstates]
    exact fun sub hsub => h.kept_subscriber hpass hsub
  have hquiet : ∀ {later}, later = false → (s.latestOverflowed c = true → later = true) →
      s.latestOverflowed c = false := by
    rintro later rfl hover
    exact Bool.eq_false_iff.mpr fun htrue => Bool.false_ne_true (hover htrue)
  have hclear : s.isClientStale c = false → contains hub.staleClients c = false := by
    rw [hregistry]
    exact id
  constructor
  case registry => exact hregistry ▸ h.registry
  case tracked =>
    intro id hid
    refine Finset.mem_union_left _ (h.tracked id ?_)
    exact hregistry ▸ hid
  case pending => exact fun id hid => Finset.mem_union_right _ (List.mem_toFinset.mpr hid)
  case hubOpen => exact hopen
  case subscribed => exact fun sub hsub => (hkept sub hsub).2.1
  case held =>
    intro sub hsub hid hlive
    obtain ⟨hmem, -, hbefore⟩ := hkept sub hsub
    exact h.held sub hmem hid (hbefore hlive)
  case owner => exact fun sub hsub hlatest => h.owner sub (hkept sub hsub).1 hlatest
  case single => exact h.single
  case holds =>
    intro k conn handle hown hheld
    obtain ⟨hlatest, hends⟩ := h.holds k conn handle hown hheld
    refine ⟨hlatest, fun hclosed => ?_⟩
    change (hub.states handle).isClosed = true at hclosed
    change (hub.states handle).staleReason.isSome = true
    cases hstale : (s.hub.states handle).staleReason.isSome with
    | true =>
      rw [hstates, published_gone hpass h.subscribed hstale]
      exact hstale
    | false =>
      rcases hnow handle hstale with ⟨-, hsame⟩ | ⟨hover, -⟩
      · have hover := hends (hsame.symm.trans hclosed)
        rw [hstale] at hover
        simp at hover
      · exact hover
  case foreign =>
    intro k conn handle hconn hid hheld
    obtain ⟨hlt, hne⟩ := h.foreign k conn handle hconn hid hheld
    exact ⟨Nat.lt_of_lt_of_eq hlt hnext.symm, hne⟩
  case known =>
    intro handle hlatest
    obtain ⟨hlt, hcapacity⟩ := h.known handle hlatest
    exact ⟨Nat.lt_of_lt_of_eq hlt hnext.symm, hcapacity⟩
  case marked =>
    intro hover
    obtain ⟨handle, hlatest, hstale⟩ := exists_latest hover
    have hlatest : s.latest c = some handle := hlatest
    cases hbefore : (s.hub.states handle).staleReason.isSome with
    | true =>
      rcases h.marked ((latestOverflowed_of hlatest).trans hbefore) with hmarked | hpending
      · left
        change contains hub.staleClients c = true
        rw [hregistry]
        exact hmarked
      · rw [hfree] at hpending
        simp at hpending
    | false =>
      rcases hnow handle hbefore with ⟨hnone, -⟩ | ⟨-, sub, hsub, rfl, hlags⟩
      · change (hub.states handle).staleReason.isSome = true at hstale
        rw [hnone] at hstale
        simp at hstale
      · exact .inr ((hpass.marked c).mpr (.inr ⟨sub, hsub, h.owner sub hsub hlatest, hlags⟩))
  case justified =>
    intro hpending
    rcases (hpass.marked c).mp hpending with hnil | ⟨sub, hsub, hid, hlags⟩
    · simp at hnil
    obtain ⟨hstale, hlive⟩ := h.lagging_subscriber hpass hsub hlags
    obtain ⟨k, conn, hown, hheld⟩ := h.held sub hsub hid hlive
    obtain ⟨hlatest, -⟩ := h.holds k conn sub.handle hown hheld
    change ((s.latest c).any fun handle => (hub.states handle).staleReason.isSome) = true
    rw [hlatest, hstates]
    exact hstale
  case clear => exact fun hsettled hnone => hclear (h.clear hsettled (hquiet hnone hstays))
  case replay =>
    intro k conn handle hown hstage hnone
    exact hclear (h.replay k conn handle hown hstage (hquiet hnone hstays))

theorem step (h : s.Sound c) {i : Section} (hone : OneConnection c s i)
    (hcareful : Careful c s i) (hfew : s.overflowed.card < maxTrackedStaleClients) :
    (s.step frameLen i).Sound c := by
  have hkeeps : ∀ session : Session, ({ s with session := session } : Server).Sound c :=
    fun session => { h with }
  cases i with
  | transaction f =>
    unfold Server.step
    simp only
    split
    · rename_i hfree
      unfold Server.transaction
      split
      · exact h.publishCommit hfree _ _
      · exact hkeeps _
    · exact h
  | commitTransaction tx =>
    unfold Server.step
    simp only
    split
    · rename_i hfree
      unfold Server.commitTransaction
      split
      · exact h.publishCommit hfree _ _
      · exact hkeeps _
    · exact h
  | markStale => exact h.markStale hfew
  | connect clientInstanceId request => exact h.connect request hone
  | bootstrap k =>
    unfold Server.step
    simp only
    split
    · rename_i hfree
      exact h.bootstrap hfree k
    · exact h
  | refuse k => exact h.refuse k
  | finishCatchUp k => exact h.finishCatchUp k
  | clearStale k => exact h.clearStale hcareful
  | take k => exact h.take k
  | drop k => exact h.drop k
  | closeNotify handle => exact h.closeNotify handle

end Sound

/-- An overflow of the latest subscription stays on record until the client's next handshake
returns; a resume of the same session then returns a resync of that session. -/
def ForcesResync (frameLen : WireTransaction → Nat) (c : Bytes) (s : Server) (i : Section) : Prop :=
  s.latestOverflowed c = true → (s.step frameLen i).latestOverflowed c = true ∨
    ∃ k conn handle catchUp, i = .bootstrap k ∧ s.Owns c k conn ∧
      (s.step frameLen i).connection k =
        some { conn with stage := .delivering handle catchUp } ∧
      ((∃ lastAppliedRevision, conn.request = .resume s.sessionId lastAppliedRevision) →
        ∃ cause, catchUp = .resync cause ∧ cause.continuity = .sameSession)

/-- A handshake of such a client that gets the lock returns, or has less left to do. -/
def Advances (frameLen : WireTransaction → Nat) (c : Bytes) (s : Server) : Section → Prop
  | .bootstrap k => ∀ conn, s.Owns c k conn → 0 < conn.stage.remaining → s.staleMarked = [] →
      s.latestOverflowed c = true → ∃ stage,
        (s.step frameLen (.bootstrap k)).connection k = some { conn with stage := stage } ∧
          stage.remaining < conn.stage.remaining
  | _ => True

/-- Once the catch-up has been delivered on a subscription that has not overflowed, no marker is
left and none is to come. -/
def NoMarkerLeft (c : Bytes) (s : Server) : Prop :=
  s.settled c = true → s.latestOverflowed c = false →
    s.isClientStale c = false ∧ c ∉ s.staleMarked.map Prod.fst

theorem Sound.noMarkerLeft (h : s.Sound c) : NoMarkerLeft c s := by
  intro hsettled hnone
  refine ⟨h.clear hsettled hnone, fun hpending => ?_⟩
  rw [h.justified hpending] at hnone
  simp at hnone

theorem Sound.advances (h : s.Sound c) (i : Section) : Advances frameLen c s i := by
  cases i with
  | bootstrap k =>
    rintro conn ⟨hconn, hid⟩ hpos hfree hover
    obtain ⟨handle, hlatest, -⟩ := exists_latest hover
    have hshake := bootstrap_handshake h.hubOpen hconn hpos
    unfold Server.step
    simp only [hfree, if_true]
    generalize s.bootstrap k = next at hshake ⊢
    cases hshake with
    | fails hcapacity => exact absurd hcapacity (h.known handle hlatest).2
    | goesOn stage _ hless =>
      exact ⟨stage, (connection_setConnection hconn _ k).trans (if_pos rfl), hless⟩
    | returns hub _ _ =>
      exact ⟨.delivering s.hub.nextHandle (s.dueCatchUp conn),
        (connection_setConnection hconn _ k).trans (if_pos rfl), hpos⟩
  | _ => trivial

theorem Sound.due (h : s.Sound c) (hfree : s.staleMarked = []) (hover : s.latestOverflowed c = true)
    (hid : conn.clientInstanceId = c) {lastAppliedRevision : Revision}
    (hrequest : conn.request = .resume s.sessionId lastAppliedRevision) :
    s.dueCatchUp conn = .resync .outboundQueueOverflow := by
  have hstale : s.isClientStale c = true := by
    rcases h.marked hover with hstale | hpending
    · exact hstale
    · rw [hfree] at hpending
      simp at hpending
  unfold dueCatchUp determineResyncCause
  simp [hrequest, hid, hstale]

theorem Sound.forcesResync (h : s.Sound c) (i : Section) : ForcesResync frameLen c s i := by
  intro hover
  have hsame : ∀ next : Server, next.latestOverflowed c = s.latestOverflowed c →
      next.latestOverflowed c = true := fun next heq => heq.trans hover
  cases i with
  | transaction f =>
    left
    unfold Server.step
    simp only
    split
    · unfold Server.transaction
      split
      · exact h.latestOverflowed_publishCommit frameLen _ _ hover
      · exact hover
    · exact hover
  | commitTransaction tx =>
    left
    unfold Server.step
    simp only
    split
    · unfold Server.commitTransaction
      split
      · exact h.latestOverflowed_publishCommit frameLen _ _ hover
      · exact hover
    · exact hover
  | markStale => exact .inl hover
  | connect clientInstanceId request => exact .inl hover
  | bootstrap k =>
    unfold Server.step
    simp only
    split
    · rename_i hfree
      by_cases hbusy : ∃ conn, s.connection k = some conn ∧ 0 < conn.stage.remaining
      · obtain ⟨conn, hconn, hpos⟩ := hbusy
        have hshake := bootstrap_handshake h.hubOpen hconn hpos
        generalize s.bootstrap k = next at hshake ⊢
        cases hshake with
        | fails hcapacity => exact .inl hover
        | goesOn stage _ _ => exact .inl hover
        | returns hub hsubscribed _ =>
          by_cases hid : conn.clientInstanceId = c
          · refine .inr ⟨k, conn, s.hub.nextHandle, s.dueCatchUp conn, rfl, ⟨hconn, hid⟩,
              (connection_setConnection hconn _ k).trans (if_pos rfl), ?_⟩
            rintro ⟨lastAppliedRevision, hrequest⟩
            exact ⟨.outboundQueueOverflow, h.due hfree hover hid hrequest, rfl⟩
          · exact .inl (hsame _ (h.latestOverflowed_deliver k hid _ hsubscribed))
      · rw [bootstrap_idle]
        · exact .inl hover
        · intro conn hconn
          by_contra hpos
          exact hbusy ⟨conn, hconn, Nat.pos_of_ne_zero hpos⟩
    · exact .inl hover
  | refuse k =>
    left
    unfold Server.step Server.refuse
    simp only
    split
    · split <;> exact hover
    · exact hover
  | finishCatchUp k =>
    left
    unfold Server.step Server.finishCatchUp
    simp only
    split
    · split
      · split <;> exact hover
      · exact hover
    · exact hover
  | clearStale k =>
    left
    unfold Server.step Server.clearStale
    simp only
    split
    · split <;> exact hover
    · exact hover
  | take k =>
    left
    unfold Server.step Server.take
    simp only
    split
    · split
      · split
        · exact hover
        · refine hsame _ (latestOverflowed_setState c ?_)
          unfold popTransaction
          split <;> rfl
      · exact hover
    · exact hover
  | drop k =>
    left
    unfold Server.step Server.drop
    simp only
    split
    · split
      · exact hsame _ (latestOverflowed_setState c rfl)
      · exact hsame _ (latestOverflowed_setState c rfl)
      · exact hover
    · exact hover
  | closeNotify handle =>
    left
    unfold Server.step Server.closeNotify
    simp only
    split <;> exact hover

theorem sound_new (c : Bytes) (sessionId : String) (session : Session)
    (outboundQueueCapacity maxTransactionOperations maxFrameSize : Nat) :
    (Server.new sessionId session outboundQueueCapacity maxTransactionOperations
      maxFrameSize).Sound c where
  registry := ⟨List.nodup_nil, fun id => by simp [Server.new, OutboundHub.new, contains]⟩
  tracked := by simp [Server.new, OutboundHub.new]
  pending := by simp [Server.new]
  hubOpen := rfl
  subscribed := by simp [Server.new, OutboundHub.new]
  held := by simp [Server.new, OutboundHub.new]
  owner := by simp [Server.new, OutboundHub.new]
  single := by simp [Owns, connection, Server.new]
  holds := by simp [Owns, connection, Server.new]
  foreign := by simp [connection, Server.new]
  known := by simp [Server.new]
  marked := by simp [latestOverflowed, Server.new]
  justified := by simp [Server.new]
  clear := by simp [Server.new]
  replay := by simp [Owns, connection, Server.new]

theorem step_overflowed (s : Server) (i : Section) :
    s.overflowed ⊆ (s.step frameLen i).overflowed := by
  have hpublish : ∀ session tx, s.overflowed ⊆ (s.publishCommit frameLen session tx).overflowed :=
    fun session tx => Finset.subset_union_left
  have hsubscribe : ∀ k conn catchUp,
      s.overflowed ⊆ (s.subscribeClientLocked k conn catchUp).overflowed := by
    intro k conn catchUp
    unfold subscribeClientLocked
    split <;> exact Finset.Subset.refl _
  cases i with
  | transaction f =>
    unfold Server.step Server.transaction
    simp only
    split
    · split
      · exact hpublish _ _
      · exact Finset.Subset.refl _
    · exact Finset.Subset.refl _
  | commitTransaction tx =>
    unfold Server.step Server.commitTransaction
    simp only
    split
    · split
      · exact hpublish _ _
      · exact Finset.Subset.refl _
    · exact Finset.Subset.refl _
  | markStale | connect clientInstanceId request => exact Finset.Subset.refl _
  | bootstrap k =>
    unfold Server.step Server.bootstrap bootstrapFreshClient bootstrapResume exportSnapshot
      useSnapshot
    simp only
    repeat' split
    all_goals first
      | exact hsubscribe _ _ _
      | exact Finset.Subset.refl _
  | refuse k =>
    unfold Server.step Server.refuse
    simp only
    repeat' split
    all_goals exact Finset.Subset.refl _
  | finishCatchUp k =>
    unfold Server.step Server.finishCatchUp
    simp only
    repeat' split
    all_goals exact Finset.Subset.refl _
  | clearStale k =>
    unfold Server.step Server.clearStale
    simp only
    repeat' split
    all_goals exact Finset.Subset.refl _
  | take k =>
    unfold Server.step Server.take
    simp only
    repeat' split
    all_goals exact Finset.Subset.refl _
  | drop k =>
    unfold Server.step Server.drop
    simp only
    repeat' split
    all_goals exact Finset.Subset.refl _
  | closeNotify handle =>
    unfold Server.step Server.closeNotify
    simp only
    split <;> exact Finset.Subset.refl _

/-- For a client with one connection at a time, when fewer clients overflow than the registry can
hold: an overflow of its latest subscription forces a resync of the same session, and no marker
outlives a catch-up delivered without one, in every run in which no overflow is marked between
the reading of `termination` and the clearing of the marker. -/
theorem overflow_forces_resync (frameLen : WireTransaction → Nat) (c : Bytes)
    (sessionId : String) (session : Session)
    (outboundQueueCapacity maxTransactionOperations maxFrameSize : Nat) {s : Server}
    (hnew : s = Server.new sessionId session outboundQueueCapacity maxTransactionOperations
      maxFrameSize)
    (sections : List Section) (hone : EveryStep (step frameLen) (OneConnection c) s sections)
    (hcareful : EveryStep (step frameLen) (Careful c) s sections)
    (hfew : (run (step frameLen) s sections).overflowed.card < maxTrackedStaleClients) :
    EveryStep (step frameLen) (ForcesResync frameLen c) s sections ∧
      EveryStep (step frameLen) (Advances frameLen c) s sections ∧
      EveryState (step frameLen) (NoMarkerLeft c) s sections := by
  have hroom : EveryStep (step frameLen)
      (fun s _ => s.overflowed.card < maxTrackedStaleClients) s sections := by
    refine (everyStep_of_last (fun s i hnext => ?_) hfew).2
    exact Nat.lt_of_le_of_lt (Finset.card_le_card (step_overflowed s i)) hnext
  have hrun := (hone.and hcareful).and hroom
  have hstep : ∀ (s : Server) (i : Section), s.Sound c →
      (OneConnection c s i ∧ Careful c s i) ∧ s.overflowed.card < maxTrackedStaleClients →
      (s.step frameLen i).Sound c :=
    fun s i h hok => h.step hok.1.1 hok.1.2 hok.2
  have hinit : s.Sound c := hnew ▸ sound_new c sessionId session outboundQueueCapacity
    maxTransactionOperations maxFrameSize
  refine ⟨?_, ?_, ?_⟩
  · exact hrun.of_invariant hstep (fun s i h _ => h.forcesResync i) hinit
  · exact hrun.of_invariant hstep (fun s i h _ => h.advances i) hinit
  · exact (hrun.everyState hstep hinit).mono fun s h => h.noMarkerLeft

instance (c : Bytes) (s : Server) : ∀ i, Decidable (OneConnection c s i)
  | .connect clientInstanceId _ => inferInstanceAs (Decidable (clientInstanceId = c →
      ∀ conn ∈ s.connections.reduceOption, conn.clientInstanceId ≠ c))
  | .transaction _ | .commitTransaction _ | .markStale | .bootstrap _ | .refuse _
  | .finishCatchUp _ | .clearStale _ | .take _ | .drop _ | .closeNotify _ => isTrue trivial

instance (c : Bytes) (s : Server) : ∀ i, Decidable (Careful c s i)
  | .clearStale k => inferInstanceAs (Decidable (∀ conn ∈ s.connection k,
      conn.clientInstanceId = c → conn.stage.isSettling = true → s.latestOverflowed c = true →
        c ∈ s.staleMarked.map Prod.fst))
  | .transaction _ | .commitTransaction _ | .markStale | .connect _ _ | .bootstrap _ | .refuse _
  | .finishCatchUp _ | .take _ | .drop _ | .closeNotify _ => isTrue trivial

def narrow : Server :=
  Server.new "s" ⟨SemanticStore.withLimits StoreLimits.default, .new 8⟩ 1 8 1024

def createNode (revision : Revision) (nodeId : NodeId) : Section :=
  .commitTransaction
    (encodeTransaction ⟨revision, revision + 1, [.createNode nodeId ⟨0, 1⟩ none none []], 0⟩)

/-- A client says hello, and its queue overflows once the marker is cleared; it comes back. -/
def overflowing : List Section :=
  [.connect [1] .hello, .bootstrap 0, .bootstrap 0, .finishCatchUp 0, .clearStale 0,
    createNode 0 1, createNode 1 2, .markStale, .drop 0, .connect [1] (.resume "s" 0),
    .bootstrap 1, .bootstrap 1]

theorem overflowing_forces_resync :
    EveryStep (step fun _ => 0) (ForcesResync (fun _ => 0) [1]) narrow overflowing ∧
      EveryStep (step fun _ => 0) (Advances (fun _ => 0) [1]) narrow overflowing ∧
      EveryState (step fun _ => 0) (NoMarkerLeft [1]) narrow overflowing :=
  overflow_forces_resync (fun _ => 0) [1] "s" ⟨SemanticStore.withLimits StoreLimits.default, .new 8⟩
    1 8 1024 rfl overflowing (by decide +kernel) (by decide +kernel) (by decide +kernel)

example : (run (step fun _ => 0) narrow overflowing).connection 1 =
    some ⟨[1], .resume "s" 0, .delivering 1 (.resync .outboundQueueOverflow)⟩ := by
  decide +kernel

/-- Up to the return of a client whose queue overflows just before the marker is cleared. -/
def overtaking : List Section :=
  [.connect [1] .hello, .bootstrap 0, .bootstrap 0, .finishCatchUp 0, createNode 0 1,
    createNode 1 2, .markStale, .clearStale 0, .drop 0, .connect [1] (.resume "s" 0)]

/-- The marker is lost, and the client gets a replay. -/
theorem overtaking_replays :
    EveryStep (step fun _ => 0) (OneConnection [1]) narrow (overtaking ++ [.bootstrap 1]) ∧
      (run (step fun _ => 0) narrow (overtaking ++ [.bootstrap 1])).overflowed.card <
        maxTrackedStaleClients ∧
      ¬EveryStep (step fun _ => 0) (ForcesResync (fun _ => 0) [1]) narrow
        (overtaking ++ [.bootstrap 1]) := by
  refine ⟨by decide +kernel, by decide +kernel, fun hforces => ?_⟩
  have hlast := (EveryStep.append.mp hforces).2.1
  have hover : (run (step fun _ => 0) narrow overtaking).latestOverflowed [1] = true := by
    decide +kernel
  have hbefore : (run (step fun _ => 0) narrow overtaking).connection 1 =
      some ⟨[1], .resume "s" 0, .starting 0⟩ := by decide +kernel
  have hafter : ((run (step fun _ => 0) narrow overtaking).step (fun _ => 0)
      (.bootstrap 1)).connection 1 = some ⟨[1], .resume "s" 0, .delivering 1 .replay⟩ := by
    decide +kernel
  have hsession : (run (step fun _ => 0) narrow overtaking).sessionId = "s" := by decide +kernel
  rcases hlast hover with hstays | ⟨k, conn, handle, catchUp, hk, ⟨hconn, -⟩, hreturn, hresync⟩
  · exact absurd hstays (by decide +kernel)
  · obtain rfl : 1 = k := Section.bootstrap.inj hk
    obtain rfl := Option.some.inj (hbefore.symm.trans hconn)
    obtain ⟨cause, hcause, -⟩ := hresync ⟨0, by rw [hsession]⟩
    rw [hcause] at hreturn
    have hstage := congrArg (fun conn => conn.map Connection.stage) (hafter.symm.trans hreturn)
    simp at hstage

end Server

end Srui.Sessiond.StaleClients

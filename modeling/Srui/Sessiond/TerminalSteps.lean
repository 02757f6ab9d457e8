import Srui.Sessiond.TerminalNodes

/-!
What the calls on terminals can do: how they leave the store and the table.
-/

namespace Srui.Sessiond.TerminalNodes

open Std Basic.Runs SemanticTree.Values SemanticTree.Stores SemanticTree.Operations
open SemanticTree.OperationEffects SemanticTree.NodeWalks SemanticTree.NodeForest
open SemanticTree.NodeRuns SemanticTree.NodeTypes SemanticTree.Transactions
open SemanticTree.TransactionAtomicity SemanticTree.Wire Sdk.UiTransactions Sessiond.Sessions
open Sessiond.Lockstep Sessiond.JournalReplay Sessiond.SessionCommits

/-- What a commit does to the nodes: no type changes, none comes back to life, and none goes
unless the commit deletes. -/
structure NodesStep (store store' : SemanticStore) (deletesNodes : Bool) : Prop where
  outlives : Outlives store store'
  types : ∀ id ∈ store.usedIds, typeOf store' id = typeOf store id ∨
    deletesNodes = true ∧ typeOf store' id = none

theorem Commits.nodesStep {session session' : Session} {ops : List Operation}
    (h : Commits session ops session') (hforest : StoreForest session.store) :
    NodesStep session.store session'.store (ops.any isDeleteNode) := by
  refine ⟨h.outlives hforest, fun id hused => ?_⟩
  rw [h.store]
  exact run_typeOf hused ops

def Live (store : SemanticStore) (id : NodeId) : Prop := store.nodes.contains id = true

variable {id : NodeId} {store : SemanticStore}

theorem not_live_iff :
    ¬Live store id ↔ store.nodes[id]? = none := by
  unfold Live
  rw [ExtTreeMap.contains_eq_isSome_getElem?]
  simp

theorem Live.used (h : Live store id)
    (hforest : StoreForest store) : id ∈ store.usedIds := by
  unfold Live at h
  rw [ExtTreeMap.contains_eq_isSome_getElem?] at h
  obtain ⟨node, hnode⟩ := Option.isSome_iff_exists.mp h
  exact hforest.used id node.parentId (parentIn_of_node hnode)

theorem NodesStep.retired {store' : SemanticStore} {deletesNodes : Bool}
    (h : NodesStep store store' deletesNodes) (hretired : Retired id store) :
    Retired id store' := by
  refine ⟨h.outlives.used id hretired.1, not_live_iff.mp fun hlive => ?_⟩
  exact not_live_iff.mpr hretired.2 (h.outlives.live id hretired.1 hlive)

theorem NodesStep.live {store' : SemanticStore} {deletesNodes : Bool}
    (h : NodesStep store store' deletesNodes) (hused : id ∈ store.usedIds)
    (hlive : Live store id) : Live store' id ∨ deletesNodes = true := by
  rcases h.types id hused with hkept | ⟨hdeletes, -⟩
  · refine .inl (not_not.mp fun hdead => ?_)
    have hnone := typeOf_eq_none.mpr (not_live_iff.mp hdead)
    rw [hkept, typeOf_eq_none, ← not_live_iff] at hnone
    exact hnone hlive
  · exact .inr hdeletes

namespace TerminalSession

variable {s : TerminalSession}

theorem any_isWireDelete (ops : List Operation) :
    (ops.map encodeOperation).any isWireDelete = ops.any isDeleteNode := by
  rw [List.any_map]
  congr 1
  funext op
  cases op <;> rfl

def transactionDeletes (s : TerminalSession) (f : Revision → Revision → UiClosure Unit) : Bool :=
  (transactionOperations s.session f).any isDeleteNode

def wireDeletes (s : TerminalSession) (tx : WireTransaction) : Bool :=
  (wireOperations s.session tx).any isDeleteNode

theorem transaction_cases (hforest : StoreForest s.session.store)
    (f : Revision → Revision → UiClosure Unit) :
    s.transaction f = s ∨ ∃ session',
      s.transaction f = s.committed session' (s.transactionDeletes f) ∧
        NodesStep s.session.store session'.store (s.transactionDeletes f) := by
  unfold transaction transactionDeletes
  rcases transactionWithResult_cases s.session f with
    ⟨fault, hkept⟩ | ⟨session', value, tx, hcommitted, hcommits⟩
  · rw [hkept]
    exact .inl rfl
  · refine .inr ⟨session', ?_, ?_⟩
    · rw [hcommitted]
    · unfold transactionOperations
      rw [hcommitted]
      exact Commits.nodesStep hcommits hforest

theorem commitTransaction_cases (hforest : StoreForest s.session.store) (tx : WireTransaction) :
    s.commitTransaction tx = s ∨
      ∃ session', s.commitTransaction tx = s.committed session' (s.wireDeletes tx) ∧
        NodesStep s.session.store session'.store (s.wireDeletes tx) := by
  unfold commitTransaction wireDeletes
  rcases JournalReplay.commitTransaction_cases s.session tx with
    ⟨fault, hkept⟩ | ⟨commit, store, hdecode, hprepared, haccepted, hcommitted⟩
  · rw [hkept]
    exact .inl rfl
  · have houtlives := (wire_commitsOrKeeps s.session tx).outlives hforest
    have hoperations : wireOperations s.session tx = commit.txn.operations := by
      unfold wireOperations
      rw [hcommitted, decodeCommit_of_decode hdecode]
    rw [hcommitted] at houtlives
    rw [hcommitted, hoperations]
    rw [prepareAndCommit_eq] at hprepared
    refine .inr ⟨_, ?_, houtlives, fun id hused => ?_⟩
    · exact congrArg (s.committed _) (any_isWireDelete commit.txn.operations)
    · change typeOf store id = _ ∨ _ ∧ typeOf store id = none
      rw [(applyTransactionRecord_ok hprepared).1]
      exact run_typeOf hused commit.txn.operations

structure Creates (session : Session) (c : CreateCall) (session' : Session) : Prop where
  fresh : c.nodeId ∉ session.store.usedIds
  used : c.nodeId ∈ session'.store.usedIds
  typed : typeOf session'.store c.nodeId = some c.typeRef
  nodes : NodesStep session.store session'.store false

variable {c : CreateCall}

theorem createNode_creates {session session' : Session}
    {result : TypeRef × WireTransaction} (hforest : StoreForest session.store)
    (h : transactionWithResult session (createNodeClosure c.nodeId c.parent c.typeRef) =
      (session', .ok result)) : Creates session c session' := by
  obtain ⟨ui, -, hrun, -, hstore, -⟩ := transactionWithResult_ok h
  have hcommits : Commits session ui.operations session' := by
    rcases transactionWithResult_cases session
        (createNodeClosure c.nodeId c.parent c.typeRef) with
      ⟨fault, hkept⟩ | ⟨committed, value, tx, hok, hcommits⟩
    · rw [hkept] at h
      cases h
    · obtain ⟨rfl, -⟩ := Prod.mk.inj (hok.symm.trans h)
      rw [hrun] at hcommits
      exact hcommits
  rw [createNodeClosure, runClosure] at hrun
  by_cases hfull : (opening session).opCount + 1 > (opening session).maxOps
  · unfold UiTransaction.perform UiTransaction.createNode UiTransaction.recorded
      UiTransaction.recordOp at hrun
    dsimp only at hrun
    rw [if_pos hfull] at hrun
    cases hrun
  cases hcreate : createNode session.store c.nodeId c.typeRef (some c.parent) none [] with
  | error fault =>
    have hperform : ((opening session).perform
        (.createNode c.nodeId c.typeRef (some c.parent) none [])).2 = .error fault := by
      unfold UiTransaction.perform UiTransaction.createNode UiTransaction.recorded
        UiTransaction.recordOp
      dsimp only
      rw [if_neg hfull]
      change Except.map _ (commit session.store (createNode session.store _ _ _ _ _)).2 = _
      rw [hcreate]
      rfl
    cases hresult : (opening session).perform
        (.createNode c.nodeId c.typeRef (some c.parent) none []) with
    | mk after outcome =>
      rw [hresult] at hperform hrun
      subst hperform
      cases fault <;> cases hrun
  | ok store =>
    have hperform : (opening session).perform
        (.createNode c.nodeId c.typeRef (some c.parent) none []) =
        ({ opening session with
          opCount := (opening session).opCount + 1
          operations := [.createNode c.nodeId c.typeRef (some c.parent) none []]
          staged := store }, .ok .unit) := by
      unfold UiTransaction.perform UiTransaction.createNode UiTransaction.recorded
        UiTransaction.recordOp
      dsimp only
      rw [if_neg hfull]
      have hstaged : (opening session).staged = session.store := rfl
      simp only [hstaged, hcreate, commit]
      rfl
    rw [hperform] at hrun
    obtain ⟨rfl, -⟩ := Prod.mk.inj hrun
    have htyped : typeOf session'.store c.nodeId = some c.typeRef := by
      rw [hstore]
      exact (typeOf_created hcreate c.nodeId).trans (if_pos rfl)
    obtain ⟨hfresh, -, -, -, -, hcreated⟩ := createNode_ok hcreate
    refine ⟨hfresh, ?_, htyped, Commits.nodesStep hcommits hforest⟩
    rw [hstore]
    change c.nodeId ∈ store.usedIds
    rw [hcreated]
    exact Finset.mem_insert_self _ _

def withTerminalType (s : TerminalSession) (createdNamespace : Option Nat) : TerminalSession :=
  { s with
    capabilities :=
      { required := insert Profile.terminalV1 s.capabilities.required
        optional := s.capabilities.optional.erase Profile.terminalV1 }
    extensionNamespaces := s.extensionNamespaces ++
      createdNamespace.toList.map fun namespaceId => ⟨terminalProfileUri, namespaceId⟩ }

def Allocates (s : TerminalSession) (namespaceId : Nat) : Option Nat → Prop
  | none => namespaceOf s.extensionNamespaces terminalProfileUri = some namespaceId
  | some createdNamespace =>
    namespaceId = createdNamespace ∧ namespaceOf s.extensionNamespaces terminalProfileUri = none ∧
      nextExtensionNamespace s.extensionNamespaces = .ok createdNamespace

theorem prepareTerminalType_ok {typeRef : TypeRef} {rollback : TerminalTypeRollback}
    {prepared : TerminalSession}
    (h : s.prepareTerminalType = .ok (typeRef, rollback, prepared)) :
    s.connections = [] ∧ s.hasNegotiated = false ∧
      s.Allocates typeRef.namespaceId rollback.createdNamespace ∧
      (rollback.wasRequired = true ↔ Profile.terminalV1 ∈ s.capabilities.required) ∧
      (rollback.wasOptional = true ↔ Profile.terminalV1 ∈ s.capabilities.optional) ∧
      prepared = s.withTerminalType rollback.createdNamespace := by
  unfold prepareTerminalType at h
  split_ifs at h with hguard
  obtain ⟨hattached, hnegotiated⟩ := not_or.mp hguard
  have hconnections : s.connections = [] := by
    apply List.eq_nil_of_length_eq_zero
    exact Nat.eq_zero_of_not_pos hattached
  dsimp only at h
  split at h
  · cases h
  · rename_i namespaceId createdNamespace hallocated
    obtain ⟨rfl, hrest⟩ := Prod.mk.inj (Except.ok.inj h)
    obtain ⟨rfl, rfl⟩ := Prod.mk.inj hrest
    refine ⟨hconnections, Bool.eq_false_iff.mpr hnegotiated, ?_, decide_eq_true_iff,
      decide_eq_true_iff, rfl⟩
    split at hallocated
    · rename_i found hfound
      obtain ⟨rfl, rfl⟩ := Prod.mk.inj (Except.ok.inj hallocated)
      exact hfound
    · rename_i hmissing
      split at hallocated
      · cases hallocated
      · rename_i fresh hfresh
        obtain ⟨rfl, rfl⟩ := Prod.mk.inj (Except.ok.inj hallocated)
        exact ⟨rfl, hmissing, hfresh⟩

def withOptionalProfile (s : TerminalSession) (profile : Profile)
    (createdNamespace : Option Nat) : TerminalSession :=
  { s with
    capabilities :=
      { s.capabilities with optional := insert profile s.capabilities.optional }
    extensionNamespaces := s.extensionNamespaces ++
      createdNamespace.toList.map fun namespaceId => ⟨profile.display, namespaceId⟩ }

theorem registerOptional_ok {profile : Profile} {namespaceId : Nat} {registered : TerminalSession}
    (h : s.registerOptionalExtensionProfile profile = .ok (namespaceId, registered)) :
    profile ≠ Profile.terminalV1 ∧ ∃ createdNamespace,
      registered = s.withOptionalProfile profile createdNamespace ∧
        ∀ fresh, createdNamespace = some fresh →
          namespaceOf s.extensionNamespaces profile.display = none ∧
            nextExtensionNamespace s.extensionNamespaces = .ok fresh := by
  unfold registerOptionalExtensionProfile at h
  split_ifs at h with hstandard hterminal hguard hrequired
  refine ⟨hterminal, ?_⟩
  dsimp only at h
  split at h
  · obtain ⟨-, rfl⟩ := Prod.mk.inj (Except.ok.inj h)
    refine ⟨none, ?_, by rintro fresh ⟨⟩⟩
    unfold withOptionalProfile
    rw [Option.toList_none, List.map_nil, List.append_nil]
  · rename_i hmissing
    split at h
    · cases h
    · rename_i fresh hfresh
      obtain ⟨-, rfl⟩ := Prod.mk.inj (Except.ok.inj h)
      refine ⟨some fresh, rfl, ?_⟩
      rintro _ ⟨⟩
      exact ⟨hmissing, hfresh⟩

theorem registerOptional_cases (profile : Profile) :
    s.step (.registerOptional profile) = s ∨ profile ≠ Profile.terminalV1 ∧ ∃ createdNamespace,
      s.step (.registerOptional profile) = s.withOptionalProfile profile createdNamespace ∧
        ∀ fresh, createdNamespace = some fresh →
          namespaceOf s.extensionNamespaces profile.display = none ∧
            nextExtensionNamespace s.extensionNamespaces = .ok fresh := by
  cases hok : s.registerOptionalExtensionProfile profile with
  | error e =>
    left
    simp only [step, hok]
  | ok result =>
    obtain ⟨hother, createdNamespace, hregistered, hfresh⟩ := registerOptional_ok hok
    refine .inr ⟨hother, createdNamespace, ?_, hfresh⟩
    simp only [step, hok, hregistered]

theorem finishHandshake_cases (connection : Nat) :
    s.step (.finishHandshake connection) = s ∨ ∃ table,
      s.connections[connection]? = some (some table) ∧
        s.step (.finishHandshake connection) =
          { s with
            handed := s.handed ++ table
            hasNegotiated := true
            connections := s.connections.set connection none } := by
  rcases hread : s.connections[connection]? with _ | _ | table
  · exact .inl (by simp only [step, hread])
  · exact .inl (by simp only [step, hread])
  · exact .inr ⟨table, rfl, by simp only [step, hread]⟩

theorem beginCall_cases (call : Nat) (nodeId parent : NodeId) :
    s.beginCall call nodeId parent = s ∨ ∃ typeRef rollback prepared, s.calls call = none ∧
      s.prepareTerminalType = .ok (typeRef, rollback, prepared) ∧
      s.beginCall call nodeId parent =
        prepared.setCall call (some ⟨nodeId, parent, typeRef, rollback, .prepared⟩) := by
  unfold beginCall
  split
  · rename_i typeRef rollback prepared hcall hprepared
    exact .inr ⟨typeRef, rollback, prepared, hcall, hprepared, rfl⟩
  · exact .inl rfl

theorem spawnCall_due {call : Nat} (hcall : s.calls call = some c)
    (hstage : c.stage = .prepared) (fails : Bool) :
    s.spawnCall call fails = s.setCall call (some { c with stage := .failed }) ∨
      c.nodeId ∉ s.streams ∧ s.spawnCall call fails =
        ({ s with streams := s.streams ++ [c.nodeId] }).setCall call
          (some { c with stage := .spawned }) := by
  unfold spawnCall
  rw [hcall]
  dsimp only
  rw [if_pos hstage]
  cases fails with
  | true => exact .inl rfl
  | false =>
    rw [if_neg Bool.false_ne_true]
    unfold spawn
    split_ifs with hlive hfull
    · exact .inl rfl
    · exact .inl rfl
    · exact .inr ⟨hlive, rfl⟩

theorem spawnCall_cases (call : Nat) (fails : Bool) :
    s.spawnCall call fails = s ∨ ∃ c, s.calls call = some c ∧ c.stage = .prepared ∧
      (s.spawnCall call fails = s.setCall call (some { c with stage := .failed }) ∨
        c.nodeId ∉ s.streams ∧ s.spawnCall call fails =
          ({ s with streams := s.streams ++ [c.nodeId] }).setCall call
            (some { c with stage := .spawned })) := by
  cases hcall : s.calls call with
  | none =>
    unfold spawnCall
    rw [hcall]
    exact .inl rfl
  | some c =>
    by_cases hstage : c.stage = .prepared
    · exact .inr ⟨c, rfl, hstage, spawnCall_due hcall hstage fails⟩
    · unfold spawnCall
      rw [hcall]
      exact .inl (if_neg hstage)

theorem commitCall_due (hforest : StoreForest s.session.store) {call : Nat}
    (hcall : s.calls call = some c) (hstage : c.stage = .spawned) (fails : Bool) :
    s.commitCall call fails = s.setCall call (some { c with stage := .refused }) ∨
      ∃ session', Creates s.session c session' ∧
        s.commitCall call fails = ({ s with
          session := session'
          created := c.nodeId :: s.created }).setCall call none := by
  unfold commitCall
  rw [hcall]
  dsimp only
  rw [if_pos hstage]
  cases fails with
  | true => exact .inl rfl
  | false =>
    rw [if_neg Bool.false_ne_true]
    cases hcommit : transactionWithResult s.session
        (createNodeClosure c.nodeId c.parent c.typeRef) with
    | mk session' outcome =>
      cases outcome with
      | ok result => exact .inr ⟨session', createNode_creates hforest hcommit, rfl⟩
      | error fault =>
        rcases transactionWithResult_cases s.session
            (createNodeClosure c.nodeId c.parent c.typeRef) with
          ⟨_, hkept⟩ | ⟨_, _, _, hok, -⟩
        · obtain ⟨rfl, -⟩ := Prod.mk.inj (hkept.symm.trans hcommit)
          exact .inl rfl
        · rw [hok] at hcommit
          cases hcommit

theorem commitCall_cases (hforest : StoreForest s.session.store) (call : Nat) (fails : Bool) :
    s.commitCall call fails = s ∨ ∃ c, s.calls call = some c ∧ c.stage = .spawned ∧
      (s.commitCall call fails = s.setCall call (some { c with stage := .refused }) ∨
        ∃ session', Creates s.session c session' ∧
          s.commitCall call fails = ({ s with
            session := session'
            created := c.nodeId :: s.created }).setCall call none) := by
  cases hcall : s.calls call with
  | none =>
    unfold commitCall
    rw [hcall]
    exact .inl rfl
  | some c =>
    by_cases hstage : c.stage = .spawned
    · exact .inr ⟨c, rfl, hstage, commitCall_due hforest hcall hstage fails⟩
    · unfold commitCall
      rw [hcall]
      exact .inl (if_neg hstage)

theorem closeCall_cases (call : Nat) :
    s.closeCall call = s ∨ ∃ c, s.calls call = some c ∧ c.stage = .refused ∧
      s.closeCall call = (s.close c.nodeId).setCall call (some { c with stage := .failed }) := by
  unfold closeCall
  split
  · rename_i c hcall
    split_ifs with hstage
    · exact .inr ⟨c, hcall, hstage, rfl⟩
    · exact .inl rfl
  · exact .inl rfl

theorem rollbackCall_cases (call : Nat) :
    s.rollbackCall call = s ∨ ∃ c, s.calls call = some c ∧ c.stage = .failed ∧
      s.rollbackCall call = (s.rollbackTerminalType c.rollback).setCall call none := by
  unfold rollbackCall
  split
  · rename_i c hcall
    split_ifs with hstage
    · exact .inr ⟨c, hcall, hstage, rfl⟩
    · exact .inl rfl
  · exact .inl rfl

theorem rollbackTerminalType_eq (rollback : TerminalTypeRollback) :
    s.rollbackTerminalType rollback = { s with
      capabilities := (s.rollbackTerminalType rollback).capabilities
      extensionNamespaces := (s.rollbackTerminalType rollback).extensionNamespaces } := by
  unfold rollbackTerminalType
  by_cases hguard : 0 < s.attachedConnections ∨ s.hasNegotiated ∨ s.streams ≠ []
  · rw [if_pos hguard]
  · rw [if_neg hguard]

def sectionCall : Section → Option Nat
  | .prepare call _ _ => some call
  | .spawn call _ => some call
  | .commit call _ => some call
  | .close call => some call
  | .rollback call => some call
  | _ => none

theorem step_calls (i : Section) {k : Nat} (hother : sectionCall i ≠ some k) :
    (s.step i).calls k = s.calls k := by
  have hset {t : TerminalSession} {call : Nat} {state : Option CreateCall}
      (hcall : some call ≠ some k) : (t.setCall call state).calls k = t.calls k :=
    Function.update_of_ne (fun hsame => hcall (congrArg some hsame.symm)) _ _
  cases i with
  | prepare call nodeId parent =>
    rcases s.beginCall_cases call nodeId parent with
      heq | ⟨typeRef, rollback, prepared, -, hprepared, heq⟩
    · exact congrArg (·.calls k) heq
    · obtain ⟨-, -, -, -, -, rfl⟩ := prepareTerminalType_ok hprepared
      exact (congrArg (·.calls k) heq).trans (hset hother)
  | spawn call fails =>
    rcases s.spawnCall_cases call fails with heq | ⟨c, -, -, heq | ⟨-, heq⟩⟩
    · exact congrArg (·.calls k) heq
    · exact (congrArg (·.calls k) heq).trans (hset hother)
    · exact (congrArg (·.calls k) heq).trans (hset hother)
  | commit call fails =>
    change (s.commitCall call fails).calls k = _
    unfold commitCall
    split
    · split_ifs
      · exact hset hother
      · split
        · exact hset hother
        · exact hset hother
      · rfl
    · rfl
  | close call =>
    rcases s.closeCall_cases call with heq | ⟨c, -, -, heq⟩
    · exact congrArg (·.calls k) heq
    · exact (congrArg (·.calls k) heq).trans (hset hother)
  | rollback call =>
    rcases s.rollbackCall_cases call with heq | ⟨c, -, -, heq⟩
    · exact congrArg (·.calls k) heq
    · refine (congrArg (·.calls k) heq).trans ((hset hother).trans ?_)
      exact congrArg (·.calls k) (s.rollbackTerminalType_eq c.rollback)
  | registerOptional profile =>
    rcases s.registerOptional_cases profile with heq | ⟨-, createdNamespace, heq, -⟩
    · exact congrArg (·.calls k) heq
    · exact congrArg (·.calls k) heq
  | transaction f =>
    change (s.transaction f).calls k = _
    unfold transaction
    split <;> rfl
  | commitTransaction tx =>
    change (s.commitTransaction tx).calls k = _
    unfold commitTransaction
    split <;> rfl
  | closeMissing nodeId =>
    change (if nodeId ∈ s.closings then _ else s).calls k = _
    split_ifs <;> rfl
  | terminateOrExpire => rfl
  | shutdown =>
    change (if 0 < s.shutdowns then _ else s).calls k = _
    split_ifs <;> rfl
  | attach =>
    change (if s.terminalState then s else _).calls k = _
    split_ifs <;> rfl
  | detach connection => rfl
  | readTable connection => rfl
  | finishHandshake connection =>
    rcases s.finishHandshake_cases connection with heq | ⟨table, -, heq⟩
    · exact congrArg (·.calls k) heq
    · exact congrArg (·.calls k) heq

/-- The sections that neither move a stream nor hand a table over. -/
def Section.Still : Section → Prop
  | .spawn .. | .close _ | .closeMissing _ | .shutdown | .finishHandshake _ => False
  | _ => True

theorem step_still {i : Section} (hstill : i.Still) :
    (s.step i).handed = s.handed ∧ (s.step i).streams = s.streams := by
  cases i with
  | prepare call nodeId parent =>
    rcases s.beginCall_cases call nodeId parent with
      heq | ⟨typeRef, rollback, prepared, -, hprepared, heq⟩
    · exact ⟨congrArg (·.handed) heq, congrArg (·.streams) heq⟩
    · obtain ⟨-, -, -, -, -, rfl⟩ := prepareTerminalType_ok hprepared
      exact ⟨congrArg (·.handed) heq, congrArg (·.streams) heq⟩
  | commit call fails =>
    change (s.commitCall call fails).handed = _ ∧ (s.commitCall call fails).streams = _
    unfold commitCall
    split
    · split_ifs
      · exact ⟨rfl, rfl⟩
      · split
        · exact ⟨rfl, rfl⟩
        · exact ⟨rfl, rfl⟩
      · exact ⟨rfl, rfl⟩
    · exact ⟨rfl, rfl⟩
  | rollback call =>
    rcases s.rollbackCall_cases call with heq | ⟨c, -, -, heq⟩
    · exact ⟨congrArg (·.handed) heq, congrArg (·.streams) heq⟩
    · have hkeeps := s.rollbackTerminalType_eq c.rollback
      exact ⟨(congrArg (·.handed) heq).trans (congrArg (·.handed) hkeeps),
        (congrArg (·.streams) heq).trans (congrArg (·.streams) hkeeps)⟩
  | registerOptional profile =>
    rcases s.registerOptional_cases profile with heq | ⟨-, createdNamespace, heq, -⟩
    all_goals exact ⟨congrArg (·.handed) heq, congrArg (·.streams) heq⟩
  | transaction f =>
    change (s.transaction f).handed = _ ∧ (s.transaction f).streams = _
    unfold transaction
    split <;> exact ⟨rfl, rfl⟩
  | commitTransaction tx =>
    change (s.commitTransaction tx).handed = _ ∧ (s.commitTransaction tx).streams = _
    unfold commitTransaction
    split <;> exact ⟨rfl, rfl⟩
  | terminateOrExpire | detach connection | readTable connection => exact ⟨rfl, rfl⟩
  | attach =>
    change (if s.terminalState then s else _).handed = _ ∧
      (if s.terminalState then s else _).streams = _
    split_ifs <;> exact ⟨rfl, rfl⟩
  | spawn | close | closeMissing | shutdown | finishHandshake => exact hstill.elim

theorem run_calls {sections : List Section} {k : Nat}
    (hother : ∀ i ∈ sections, sectionCall i ≠ some k) :
    (run step s sections).calls k = s.calls k := by
  induction sections generalizing s with
  | nil => rfl
  | cons i rest ih =>
    rw [run_cons, ih fun j hj => hother j (List.mem_cons_of_mem i hj)]
    exact step_calls i (hother i List.mem_cons_self)

end TerminalSession

end Srui.Sessiond.TerminalNodes

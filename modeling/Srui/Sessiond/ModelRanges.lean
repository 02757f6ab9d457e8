import Srui.Sessiond.SessionCommits

/-!
Range requests of clients: the window is validated under the session's lock, the
provider runs without it, and the rows are committed under the lock again.

A session runs any number of requests at a time, with transactions between them.
For each request the operations committed since its query are kept beside it, each
with the store it was applied to.
-/

namespace Srui.Sessiond.ModelRanges

open Basic.Machine Basic.Runs SemanticTree.Values SemanticTree.Limits SemanticTree.Models
open SemanticTree.Stores SemanticTree.Operations SemanticTree.OperationEffects
open SemanticTree.Transactions SemanticTree.Wire Journal.TransactionJournals Sdk.UiTransactions
open Sessiond.Sessions Sessiond.SessionCommits

structure ClientModelRangeRequest where
  nodeId : Nat
  modelId : Nat
  startIndex : Nat
  count : Nat
  observedRevision : Nat
deriving DecidableEq, Repr

structure ModelRangeQuery where
  nodeId : NodeId
  modelId : ModelId
  startIndex : Nat
  count : Nat
  observedRevision : Nat
deriving DecidableEq, Repr

/-- Outcome of a request that was well-formed enough to consider. -/
inductive ModelRangeFulfillment where
  | committed (newRevision : Nat)
  | alreadyCached
  | stale
  | noProvider
deriving DecidableEq, Repr

/-- `session` carries the error whose text the source puts into a string. -/
inductive ModelRangeError where
  | invalidNodeId (id : Nat)
  | invalidModelId (id : Nat)
  | countZero
  | indexOverflow (start count : Nat)
  | nodeNotFound (id : NodeId)
  | notACollectionNode (id : NodeId)
  | modelRefMismatch (node : NodeId) (requested : ModelId) (actual : Option ModelId)
  | modelNotFound (id : ModelId)
  | outOfBounds (start stop itemCount : Nat)
  | countExceedsLimit (count limit : Nat)
  | staleRevision (observed actual : Nat)
  | providerItemCountMismatch (expected actual : Nat)
  | provider (message : String)
  | session (e : SessionError)
deriving DecidableEq, Repr

/-- `is_collection_type`: `LIST`, `TABLE` or `TREE`. -/
def isCollectionType (nodeType : TypeRef) : Bool :=
  nodeType = ⟨0, 17⟩ || nodeType = ⟨0, 18⟩ || nodeType = ⟨0, 19⟩

/-- `Node::model_ref`. -/
def modelRef (node : Node) : Option ModelId :=
  match node.properties[PropertyRef.modelRef]? with
  | some (.scalar (.unsignedInt u)) => some u
  | some (.scalar (.signedInt i)) => if 0 ≤ i then some i.toNat else none
  | _ => none

/-- `range_is_cached`. -/
def rangeIsCached (model : Model) (start count : Nat) : Bool :=
  (List.range count).all fun offset => model.items.contains (start + offset)

/-- `validate_request`. -/
def validateRequest (store : SemanticStore) (request : ClientModelRangeRequest) :
    Except ModelRangeError ModelRangeQuery :=
  if request.nodeId = 0 then .error (.invalidNodeId request.nodeId)
  else if request.modelId = 0 then .error (.invalidModelId request.modelId)
  else if request.count = 0 then .error .countZero
  else
    match checkedAdd request.startIndex request.count with
    | none => .error (.indexOverflow request.startIndex request.count)
    | some stop =>
      match store.nodes[request.nodeId]? with
      | none => .error (.nodeNotFound request.nodeId)
      | some node =>
        if isCollectionType node.nodeType = false then
          .error (.notACollectionNode request.nodeId)
        else if modelRef node ≠ some request.modelId then
          .error (.modelRefMismatch request.nodeId request.modelId (modelRef node))
        else
          match store.models[request.modelId]? with
          | none => .error (.modelNotFound request.modelId)
          | some model =>
            if model.itemCount < stop then
              .error (.outOfBounds request.startIndex stop model.itemCount)
            else if store.limits.maxItemsPerModelOperation < request.count then
              .error (.countExceedsLimit request.count store.limits.maxItemsPerModelOperation)
            else if store.revision < request.observedRevision then
              .error (.staleRevision request.observedRevision store.revision)
            else
              .ok ⟨request.nodeId, request.modelId, request.startIndex, request.count,
                request.observedRevision⟩

def windowIsCached (store : SemanticStore) (query : ModelRangeQuery) : Bool :=
  match store.models[query.modelId]? with
  | some model => rangeIsCached model query.startIndex query.count
  | none => false

/-- `fulfill_model_range_request` up to the call of the provider: the query it is
called with, or the outcome without one. -/
def queryModelRange (store : SemanticStore) (providers : Finset ModelId)
    (request : ClientModelRangeRequest) :
    Except ModelRangeError (ModelRangeFulfillment ⊕ ModelRangeQuery) :=
  match validateRequest store request with
  | .error e => .error e
  | .ok query =>
    if windowIsCached store query then .ok (.inl .alreadyCached)
    else if query.modelId ∈ providers then .ok (.inr query)
    else .ok (.inl .noProvider)

/-- The loop of `commit_ops_locked` over the operations. -/
def applyOps (ui : UiTransaction) : List Operation → Outcome StoreError UiTransaction
  | [] => .ok ui
  | op :: rest =>
    match ui.applyOp op with
    | (ui, .ok ()) => applyOps ui rest
    | (_, .error f) => .error f

/-- `commit_ops_locked`. The commit is built without a check for the last revision,
where it panics. -/
def commitOpsLocked (session : Session) (ops : List Operation) :
    Session × Outcome ModelRangeError Unit :=
  match applyOps (UiTransaction.new session.store session.store.limits.maxTransactionOperations)
      ops with
  | .error (.error e) => (session, err (.session (.store e)))
  | .error .panicked => (session, .error .panicked)
  | .error .diverges => (session, .error .diverges)
  | .ok ui =>
    match hnext : checkedNext session.store.revision with
    | none => (session, .error .panicked)
    | some committed =>
      match prepare session.journal (AuthoritativeCommit.new hnext ui.operations) with
      | .error e => (session, err (.session (.journal e)))
      | .ok permit =>
        match append session.journal permit with
        | .error _ =>
          ({ session with store := commitStaging session.store ui.staged committed },
            .error .panicked)
        | .ok journal => (⟨commitStaging session.store ui.staged committed, journal⟩, .ok ())

def resetOperation (query : ModelRangeQuery) (items : List ModelItem) : Operation :=
  .modelResetRange query.modelId query.startIndex items none

def ModelRangeQuery.request (query : ModelRangeQuery) : ClientModelRangeRequest :=
  ⟨query.nodeId, query.modelId, query.startIndex, query.count, query.observedRevision⟩

def meansStale : ModelRangeError → Bool
  | .staleRevision .. => true
  | .outOfBounds .. => true
  | .nodeNotFound _ => true
  | .modelNotFound _ => true
  | .modelRefMismatch .. => true
  | _ => false

/-- `Session::commit_reset_if_current`. -/
def commitResetIfCurrent (session : Session) (query : ModelRangeQuery) (items : List ModelItem) :
    Session × Outcome ModelRangeError ModelRangeFulfillment :=
  match validateRequest session.store query.request with
  | .error e => if meansStale e then (session, .ok .stale) else (session, err e)
  | .ok _ =>
    if windowIsCached session.store query then (session, .ok .alreadyCached)
    else
      match commitOpsLocked session [resetOperation query items] with
      | (session, .ok ()) => (session, .ok (.committed session.store.revision))
      | (session, .error f) => (session, .error f)

/-- `fulfill_model_range_request` from the answer of the provider on. -/
def fulfillModelRange (session : Session) (query : ModelRangeQuery)
    (answer : Except ModelRangeError (List ModelItem)) :
    Session × Outcome ModelRangeError ModelRangeFulfillment :=
  match answer with
  | .error e => (session, err e)
  | .ok items =>
    if items.length ≠ query.count then
      (session, err (.providerItemCountMismatch query.count items.length))
    else commitResetIfCurrent session query items

/-- A request between its query and its commit, or one that has committed, with the
operations committed since the query. -/
structure RangeRequest where
  query : ModelRangeQuery
  intervening : List (SemanticStore × Operation)

structure State where
  session : Session
  providers : Finset ModelId
  inFlight : List RangeRequest
  fulfilled : List RangeRequest

inductive Input (τ : Type) where
  | transaction (f : Revision → Revision → UiClosure τ)
  | commitTransaction (tx : WireTransaction)
  | registerProvider (modelId : ModelId)
  | request (request : ClientModelRangeRequest)
  | answer (index : Nat) (answer : Except ModelRangeError (List ModelItem))

def trail : SemanticStore → List Operation → List (SemanticStore × Operation)
  | _, [] => []
  | s, op :: rest => (s, op) :: trail (applyStep s op) rest

def RangeRequest.after (entries : List (SemanticStore × Operation)) (request : RangeRequest) :
    RangeRequest :=
  { request with intervening := request.intervening ++ entries }

variable {τ : Type}

def State.committed (state : State) (session : Session) (ops : List Operation) : State :=
  { state with
    session := session
    inFlight := state.inFlight.map (RangeRequest.after (trail state.session.store ops)) }

def settle (others : State) (request : RangeRequest) (reset : Operation) :
    Session × Outcome ModelRangeError ModelRangeFulfillment → State
  | (session, .ok (.committed _)) =>
    { others.committed session [reset] with fulfilled := others.fulfilled ++ [request] }
  | (session, _) => { others with session := session }

def step (state : State) : Input τ → State
  | .transaction f =>
    state.committed (transactionWithResult state.session f).1
      (transactionOperations state.session f)
  | .commitTransaction tx =>
    state.committed (commitTransaction state.session tx).1 (wireOperations state.session tx)
  | .registerProvider modelId => { state with providers := insert modelId state.providers }
  | .request request =>
    match queryModelRange state.session.store state.providers request with
    | .ok (.inr query) => { state with inFlight := state.inFlight ++ [⟨query, []⟩] }
    | _ => state
  | .answer index answer =>
    match state.inFlight[index]? with
    | none => state
    | some request =>
      settle { state with inFlight := state.inFlight.eraseIdx index } request
        (resetOperation request.query (answer.toOption.getD []))
        (fulfillModelRange state.session request.query answer)

/-- A new session, as `Session::new` builds it. -/
def freshState (journalCapacity : Nat) : State :=
  ⟨⟨SemanticStore.withLimits StoreLimits.default, TransactionJournal.new journalCapacity⟩, ∅, [], []⟩

def cachedRow (store : SemanticStore) (id : ModelId) (position : Nat) : Option ModelItem :=
  store.models[id]?.bind fun model => model.items[position]?

/-- Between two stores a row was put at a position of the window. -/
def CommitsRow (query : ModelRangeQuery) (before after : SemanticStore) : Prop :=
  ∃ offset ∈ List.range query.count,
    cachedRow after query.modelId (query.startIndex + offset) ≠ none ∧
      cachedRow after query.modelId (query.startIndex + offset) ≠
        cachedRow before query.modelId (query.startIndex + offset)

def deletesBeforeRows : Model → List ItemId → Bool
  | _, [] => false
  | model, itemId :: rest =>
    (match model.idToIndex[itemId]? with
      | some index => decide (index + 1 < model.itemCount)
      | none => decide (1 < model.itemCount)) ||
    deletesBeforeRows (deleteByIds model [itemId]).1 rest

def movesRows (id : ModelId) (model : Model) : Operation → Bool
  | .modelInsert target index items =>
    decide (target = id ∧ items ≠ [] ∧ index < model.itemCount)
  | .modelDelete target index count itemIds =>
    decide (target = id) &&
      if itemIds = [] then
        decide (0 < count.getD 0 ∧ index.getD 0 + count.getD 0 < model.itemCount)
      else deletesBeforeRows model itemIds
  | _ => false

def ShiftsPositions (query : ModelRangeQuery) (before : SemanticStore) (op : Operation) : Prop :=
  (apply op before).2 = .ok () ∧
    ∃ model ∈ before.models[query.modelId]?, movesRows query.modelId model op = true

/-- What must not be committed between the query and the commit of a request. -/
def Disturbed (request : RangeRequest) : Prop :=
  ∃ entry ∈ request.intervening,
    CommitsRow request.query entry.1 (applyStep entry.1 entry.2) ∨
      ShiftsPositions request.query entry.1 entry.2

instance (query : ModelRangeQuery) (before after : SemanticStore) :
    Decidable (CommitsRow query before after) :=
  inferInstanceAs (Decidable (∃ offset ∈ List.range query.count, _ ∧ _))

instance (query : ModelRangeQuery) (before : SemanticStore) (op : Operation) :
    Decidable (ShiftsPositions query before op) :=
  inferInstanceAs (Decidable (_ ∧ ∃ model ∈ before.models[query.modelId]?, _))

instance (request : RangeRequest) : Decidable (Disturbed request) :=
  inferInstanceAs (Decidable (∃ entry ∈ request.intervening, _ ∨ _))

def NothingLost (state : State) : Prop := ∀ request ∈ state.fulfilled, ¬ Disturbed request

def Discards (session : Session) (query : ModelRangeQuery) (items : List ModelItem) : Prop :=
  items.length ≠ query.count ∨
    (∀ valid, validateRequest session.store query.request ≠ .ok valid) ∨
    windowIsCached session.store query = true ∨
    (apply (resetOperation query items) session.store).2 ≠ .ok () ∨
    session.store.revision = u64Max

/-- A disturbed request is discarded when its answer arrives. -/
def Careful (state : State) : Input τ → Prop
  | .answer index (.ok items) =>
    ∀ request ∈ state.inFlight[index]?, Disturbed request →
      Discards state.session request.query items
  | _ => True

variable {session : Session}

theorem commitOpsLocked_cases (h : Headed session) (op : Operation) :
    (((apply op session.store).2 ≠ .ok () ∨ session.store.revision = u64Max) ∧
      ∃ fault, commitOpsLocked session [op] = (session, .error fault)) ∨
    ((apply op session.store).2 = .ok () ∧ session.store.revision ≠ u64Max ∧
      ∃ session', commitOpsLocked session [op] = (session', .ok ()) ∧
        Commits session [op] session') := by
  have hadmits : Lockstep.Admits
      (UiTransaction.new session.store session.store.limits.maxTransactionOperations) := h.admits
  have hsingle : (UiTransaction.new session.store
      session.store.limits.maxTransactionOperations).applyOp op =
        (⟨applyStep session.store op, [op], 1, session.store.limits.maxTransactionOperations⟩,
          (apply op session.store).2) := by
    rw [UiTransaction.applyOp, Lockstep.recorded_admitted hadmits]
    rfl
  rw [commitOpsLocked, applyOps, hsingle]
  cases hresult : (apply op session.store).2 with
  | error fault =>
    refine .inl ⟨.inl (by simp), ?_⟩
    cases fault with
    | error e | panicked | diverges => exact ⟨_, rfl⟩
  | ok _ =>
    have hchecked := h.checkedNext_eq
    simp only [applyOps]
    split
    · rename_i hnone
      rw [hnone] at hchecked
      split at hchecked
      · rename_i hlast
        exact .inl ⟨.inr hlast, _, rfl⟩
      · simp at hchecked
    · rename_i next hnext
      rw [hnext] at hchecked
      split at hchecked
      · simp at hchecked
      · rename_i hmore
        obtain ⟨permit, hprepare⟩ := h.prepares hnext [op]
        obtain ⟨journal, happend, hcommits⟩ := prepared_commits hnext
          ⟨applyStep session.store op, [op], 1,
            session.store.limits.maxTransactionOperations⟩ rfl h.admits hprepare
        refine .inr ⟨trivial, hmore, _, ?_, hcommits⟩
        simp only [hprepare, happend]

/-- What an answer that is not committed leaves behind. -/
def Kept (session : Session)
    (result : Session × Outcome ModelRangeError ModelRangeFulfillment) : Prop :=
  result.1 = session ∧ ∀ revision, result.2 ≠ .ok (.committed revision)

theorem Kept.settle {others : State} {request : RangeRequest}
    {reset : Operation} {result : Session × Outcome ModelRangeError ModelRangeFulfillment}
    (h : Kept session result) :
    settle others request reset result = { others with session := session } := by
  obtain ⟨rfl, hnot⟩ := h
  rw [ModelRanges.settle.eq_def]
  split
  · rename_i session' revision
    exact absurd rfl (hnot revision)
  · rfl

theorem fulfillModelRange_cases (h : Headed session) (query : ModelRangeQuery)
    (items : List ModelItem) :
    (Discards session query items ∧ Kept session (fulfillModelRange session query (.ok items))) ∨
    (¬ Discards session query items ∧ ∃ session' revision,
      fulfillModelRange session query (.ok items) = (session', .ok (.committed revision)) ∧
        Commits session [resetOperation query items] session') := by
  rw [fulfillModelRange, Discards]
  split
  · rename_i hcount
    exact .inl ⟨.inl hcount, rfl, by simp [err]⟩
  rename_i hcount
  rw [commitResetIfCurrent]
  split
  · rename_i e hinvalid
    refine .inl ⟨.inr (.inl (by simp [hinvalid])), ?_⟩
    split
    · exact ⟨rfl, by simp⟩
    · exact ⟨rfl, by simp [err]⟩
  rename_i valid hvalid
  split
  · rename_i hcached
    exact .inl ⟨.inr (.inr (.inl hcached)), rfl, by simp⟩
  rename_i hcached
  rcases commitOpsLocked_cases h (resetOperation query items) with
    ⟨hrefused, fault, hlocked⟩ | ⟨hok, hmore, session', hlocked, hcommits⟩
  · rw [hlocked]
    exact .inl ⟨.inr (.inr (.inr hrefused)), rfl, by simp⟩
  · rw [hlocked]
    refine .inr ⟨?_, session', _, rfl, hcommits⟩
    rintro (hother | hother | hother | hother | hother)
    · exact hcount hother
    · exact hother valid hvalid
    · exact hcached hother
    · exact hother hok
    · exact hmore hother

theorem step_headed {state : State} (h : Headed state.session) (input : Input τ) :
    Headed (step state input).session := by
  cases input with
  | transaction f => exact (transaction_commitsOrKeeps state.session f).headed h
  | commitTransaction tx => exact (wire_commitsOrKeeps state.session tx).headed h
  | registerProvider modelId => exact h
  | request request =>
    rw [step]
    split
    · exact h
    · exact h
  | answer index answer =>
    rw [step]
    split
    · exact h
    rename_i request hrequest
    cases answer with
    | error e => exact h
    | ok items =>
      rcases fulfillModelRange_cases h request.query items with
        ⟨-, hkept⟩ | ⟨-, session', revision, hfulfilled, hcommits⟩
      · rw [hkept.settle]
        exact h
      · rw [hfulfilled]
        exact hcommits.headed h

theorem step_nothingLost_iff {state : State} (hheaded : Headed state.session)
    (h : NothingLost state) (input : Input τ) :
    NothingLost (step state input) ↔ Careful state input := by
  cases input with
  | transaction f | commitTransaction tx | registerProvider modelId =>
    exact ⟨fun _ => trivial, fun _ => h⟩
  | request request =>
    refine ⟨fun _ => trivial, fun _ => ?_⟩
    rw [step]
    split
    · exact h
    · exact h
  | answer index answer =>
    rw [step]
    split
    · rename_i hnone
      refine ⟨fun _ => ?_, fun _ => h⟩
      cases answer with
      | error e => trivial
      | ok items => simp [Careful, hnone]
    rename_i request hrequest
    cases answer with
    | error e => exact ⟨fun _ => trivial, fun _ => h⟩
    | ok items =>
      simp only [Careful, hrequest, Option.mem_some_iff, forall_eq']
      rcases fulfillModelRange_cases hheaded request.query items with
        ⟨hdiscards, hkept⟩ | ⟨hcommits, session', revision, hfulfilled, -⟩
      · rw [hkept.settle]
        exact ⟨fun _ _ => hdiscards, fun _ => h⟩
      · rw [hfulfilled]
        constructor
        · intro hnext hdisturbed
          exact absurd hdisturbed (hnext request (List.mem_append_right _ (by simp)))
        · intro hcareful other hother
          rcases List.mem_append.mp hother with hold | hnew
          · exact h other hold
          · rw [List.mem_singleton.mp hnew]
            exact fun hdisturbed => hcommits (hcareful hdisturbed)

/-- In every run of a session, no committed range loses an update exactly when every
disturbed request happens to be discarded when its answer arrives. -/
theorem nothing_lost_iff_careful (journalCapacity : Nat) (inputs : List (Input τ)) :
    EveryState step NothingLost (freshState journalCapacity) inputs ↔
      EveryStep step Careful (freshState journalCapacity) inputs := by
  have hfresh : Headed (freshState journalCapacity).session :=
    ⟨.inl rfl, (by decide : 0 < StoreLimits.default.maxTransactionOperations), Nat.zero_le _⟩
  have hnone : NothingLost (freshState journalCapacity) := by
    intro request hrequest
    exact absurd hrequest List.not_mem_nil
  have hstep : ∀ state (input : Input τ), Headed state.session → True → NothingLost state →
      (NothingLost (step state input) ↔ Careful state input) :=
    fun state input hheaded _ h => step_nothingLost_iff hheaded h input
  exact everyState_iff_everyStep_of (fun state input hheaded _ => step_headed hheaded input) hstep
    hfresh hnone (everyStep_of_forall (fun _ _ => trivial) _ _)

def applying : List Operation → UiClosure Unit
  | [] => .finish (.ok ())
  | op :: rest => .call (.applyOp op) fun _ _ => applying rest

def labelled (itemId : ItemId) (label : String) : ModelItem :=
  ⟨itemId, .scalar (.string label), ∅⟩

/-- A table of four rows, none of them cached; its first two are asked for, and
operations are committed before they arrive. -/
def raced (ops : List Operation) : List (Input Unit) :=
  [.transaction fun _ _ => applying [.createModel 7 ⟨0, 18⟩ 4,
      .createNode 2 ⟨0, 18⟩ none none [(PropertyRef.modelRef, .scalar (.unsignedInt 7))]],
    .registerProvider 7,
    .request ⟨2, 7, 0, 2, 1⟩,
    .transaction fun _ _ => applying ops,
    .answer 0 (.ok [labelled 1 "old", labelled 2 "other"])]

/-- A newer first row is overwritten, and rows are put where others stand after an
insertion. -/
theorem raced_ranges_lose_updates :
    ¬ EveryState step NothingLost (freshState 8)
        (raced [.modelResetRange 7 0 [labelled 1 "new"] none]) ∧
      ¬ EveryState step NothingLost (freshState 8)
        (raced [.modelInsert 7 0 [labelled 3 "first"]]) := by
  constructor
  · intro hevery
    have hlost : ∃ request ∈ (run step (freshState 8)
        (raced [.modelResetRange 7 0 [labelled 1 "new"] none])).fulfilled, Disturbed request := by
      decide +kernel
    obtain ⟨request, hrequest, hdisturbed⟩ := hlost
    exact hevery.last request hrequest hdisturbed
  · intro hevery
    have hlost : ∃ request ∈ (run step (freshState 8)
        (raced [.modelInsert 7 0 [labelled 3 "first"]])).fulfilled, Disturbed request := by
      decide +kernel
    obtain ⟨request, hrequest, hdisturbed⟩ := hlost
    exact hevery.last request hrequest hdisturbed

end Srui.Sessiond.ModelRanges

import Srui.Basic.Runs
import Srui.Srtop.Projections

/-!
Item IDs identify process instances.

An ID is known for a key when it is assigned to it now or was given to it before; what is
known only grows, and a new ID is larger than every known one.
-/

namespace Srui.Srtop.Projections

open Std Basic.FiniteMaps Basic.Machine Basic.Runs
open SemanticTree.Values (ItemId)
open Srtop.Sources Srtop.Columns

/-! ### Anchoring -/

theorem anchorAll_length (keys : List ProcessKey) (identity : SessionIdentity) :
    (identity.anchorAll keys).2.length = keys.length := by
  induction keys generalizing identity with
  | nil => rfl
  | cons key rest ih => exact congrArg Nat.succ (ih _)

/-- What is read of a component, or nothing of it where what is remembered is what would have
been read. -/
def LosesComponent {α : Type} (remembered : Option α) (full lost : Observed α) : Prop :=
  lost = full ∨ ∃ value reason, remembered = some value ∧ full = .known value ∧
    lost = .missing reason

theorem anchorComponent_lost {α : Type} {remembered : Option α} {full lost : Observed α}
    (h : LosesComponent remembered full lost) :
    anchorComponent remembered lost = anchorComponent remembered full := by
  rcases h with rfl | ⟨value, reason, rfl, rfl, rfl⟩
  · rfl
  · rfl

structure LosesSight (identity : SessionIdentity) (full lost : ProcessRecord) : Prop where
  host : LosesComponent identity.host full.key.host lost.key.host
  boot : LosesComponent identity.boot full.key.boot lost.key.boot
  pidNamespace : LosesComponent identity.pidNamespace full.key.pidNamespace lost.key.pidNamespace
  same : lost = { full with key := { full.key with
    host := lost.key.host, boot := lost.key.boot, pidNamespace := lost.key.pidNamespace } }

variable {identity : SessionIdentity}

theorem anchor_lost {full lost : ProcessRecord}
    (h : LosesSight identity full lost) : identity.anchor lost.key = identity.anchor full.key := by
  have hkey : lost.key = { full.key with
      host := lost.key.host, boot := lost.key.boot, pidNamespace := lost.key.pidNamespace } := by
    conv_lhs => rw [h.same]
  unfold SessionIdentity.anchor
  simp only [anchorComponent_lost h.host, anchorComponent_lost h.boot,
    anchorComponent_lost h.pidNamespace]
  rw [hkey]

/-- Scan for scan and record for record: each component is read, or what is remembered of it
when the record is reached is what would have been read. -/
inductive RecordsLose : SessionIdentity → List ProcessRecord → List ProcessRecord → Prop where
  | nil (identity : SessionIdentity) : RecordsLose identity [] []
  | cons {identity : SessionIdentity} {full lost : ProcessRecord}
      {fulls losts : List ProcessRecord} (head : LosesSight identity full lost)
      (tail : RecordsLose (identity.anchor full.key).1 fulls losts) :
      RecordsLose identity (full :: fulls) (lost :: losts)

theorem anchorAll_lost {fulls losts : List ProcessRecord}
    (h : RecordsLose identity fulls losts) :
    identity.anchorAll (losts.map ProcessRecord.key) =
      identity.anchorAll (fulls.map ProcessRecord.key) := by
  induction h with
  | nil identity => rfl
  | cons head tail ih =>
    simp only [List.map_cons, SessionIdentity.anchorAll, anchor_lost head, ih]

variable {layout : ColumnLayout}

theorem projectRows_lost
    {fulls losts : List ProcessRecord} (h : RecordsLose identity fulls losts)
    (keys : List ProcessKey) (ids : SessionItemIds) :
    ids.projectRows layout (losts.zip keys) = ids.projectRows layout (fulls.zip keys) := by
  induction h generalizing keys ids with
  | nil identity => rfl
  | @cons identity full lost fulls losts head tail ih =>
    rcases keys with - | ⟨key, keys⟩
    · rfl
    have hrow (id : ItemId) : projectRow layout lost key id = projectRow layout full key id := by
      rw [head.same]
      rfl
    simp only [List.zip_cons_cons, SessionItemIds.projectRows, ih, hrow]

theorem project_lost {ids : SessionItemIds} {full lost : ProcessSnapshot}
    (h : RecordsLose ids.identity full.records lost.records) (layout : ColumnLayout) :
    ids.project lost layout = ids.project full layout := by
  simp only [SessionItemIds.project, anchorAll_lost h, projectRows_lost h]

def projectAll (layout : ColumnLayout) (ids : SessionItemIds) :
    List ProcessSnapshot → SessionItemIds × List (Except ProjectError (List Row))
  | [] => (ids, [])
  | snapshot :: rest =>
    let projected := ids.project snapshot layout
    let after := projectAll layout projected.1 rest
    (after.1, projected.2 :: after.2)

inductive ScansLose (layout : ColumnLayout) :
    SessionItemIds → List ProcessSnapshot → List ProcessSnapshot → Prop where
  | nil (ids : SessionItemIds) : ScansLose layout ids [] []
  | cons {ids : SessionItemIds} {full lost : ProcessSnapshot} {fulls losts : List ProcessSnapshot}
      (head : RecordsLose ids.identity full.records lost.records)
      (tail : ScansLose layout (ids.project full layout).1 fulls losts) :
      ScansLose layout ids (full :: fulls) (lost :: losts)

theorem projectAll_lost {ids : SessionItemIds}
    {fulls losts : List ProcessSnapshot} (h : ScansLose layout ids fulls losts) :
    projectAll layout ids losts = projectAll layout ids fulls := by
  induction h with
  | nil ids => rfl
  | cons head tail ih => simp only [projectAll, project_lost head, ih]

/-! ### Allocation -/

variable {ids ids' : SessionItemIds} {given : List (ProcessKey × ItemId)}

def Known (ids : SessionItemIds) (given : List (ProcessKey × ItemId)) (key : ProcessKey)
    (id : ItemId) : Prop :=
  ids.assigned[key]? = some id ∨ (key, id) ∈ given

structure Owned (ids : SessionItemIds) (given : List (ProcessKey × ItemId)) : Prop where
  used : ∀ (key : ProcessKey) (id : ItemId), Known ids given key id → id ≤ ids.lastId
  single : ∀ (key key' : ProcessKey) (id : ItemId), Known ids given key id → Known ids given key' id → key = key'

/-- Assignments are kept, and the pairs on record stay owned. -/
structure Extends (given : List (ProcessKey × ItemId)) (ids ids' : SessionItemIds) : Prop where
  owned : Owned ids given → Owned ids' given
  kept : ∀ (key : ProcessKey) (id : ItemId), ids.assigned[key]? = some id → ids'.assigned[key]? = some id

theorem Extends.refl (given : List (ProcessKey × ItemId)) (ids : SessionItemIds) :
    Extends given ids ids := ⟨id, fun _ _ h => h⟩

theorem Extends.trans {ids'' : SessionItemIds} (h : Extends given ids ids')
    (h' : Extends given ids' ids'') : Extends given ids ids'' :=
  ⟨fun howned => h'.owned (h.owned howned), fun key id hkey => h'.kept key id (h.kept key id hkey)⟩

def assignNext (ids : SessionItemIds) (key : ProcessKey) : SessionItemIds where
  assigned := ids.assigned.insert key (ids.lastId + 1)
  identity := ids.identity
  lastId := ids.lastId + 1

theorem Owned.assign (h : Owned ids given) (key : ProcessKey) :
    Owned (assignNext ids key) given := by
  have hknown : ∀ k i, Known (assignNext ids key) given k i →
      (k = key ∧ i = ids.lastId + 1) ∨ Known ids given k i := by
    rintro k i (hassigned | hgiven)
    · rw [assignNext, getElem?_put] at hassigned
      split at hassigned
      · rename_i heq
        exact Or.inl ⟨heq.symm, (Option.some.inj hassigned).symm⟩
      · exact Or.inr (Or.inl hassigned)
    · exact Or.inr (Or.inr hgiven)
  constructor
  · intro k i hki
    rcases hknown k i hki with ⟨-, rfl⟩ | hold
    · exact Nat.le_refl _
    · exact Nat.le_succ_of_le (h.used k i hold)
  · intro k k' i hki hki'
    rcases hknown k i hki with ⟨rfl, rfl⟩ | hold
    · rcases hknown k' _ hki' with ⟨rfl, -⟩ | hold'
      · rfl
      · exact absurd (h.used k' _ hold') (Nat.not_succ_le_self _)
    · rcases hknown k' i hki' with ⟨rfl, rfl⟩ | hold'
      · exact absurd (h.used k _ hold) (Nat.not_succ_le_self _)
      · exact h.single k k' i hold hold'

theorem allocate_spec (given : List (ProcessKey × ItemId)) (ids : SessionItemIds)
    (key : ProcessKey) :
    Extends given ids (ids.allocate key).1 ∧
      ∀ id, (ids.allocate key).2 = .ok id → (ids.allocate key).1.assigned[key]? = some id := by
  unfold SessionItemIds.allocate
  split
  · rename_i id hassigned
    refine ⟨.refl given ids, fun id' hid => ?_⟩
    cases hid
    exact hassigned
  rename_i hunassigned
  split
  · exact ⟨.refl given ids, by simp⟩
  · rename_i next hnext
    obtain ⟨-, rfl⟩ := checkedAdd_eq_some.mp hnext
    refine ⟨⟨fun howned => howned.assign key, fun k i hk => ?_⟩, fun id' hid => ?_⟩
    · rw [getElem?_put, if_neg]
      · exact hk
      · rintro rfl
        rw [hunassigned] at hk
        cases hk
    · cases hid
      rw [getElem?_put, if_pos rfl]

theorem projectRows_spec (given : List (ProcessKey × ItemId)) (layout : ColumnLayout)
    (pairs : List (ProcessRecord × ProcessKey)) (ids : SessionItemIds) :
    Extends given ids (ids.projectRows layout pairs).1 ∧
      ∀ rows, (ids.projectRows layout pairs).2 = .ok rows →
        rows.map Row.key = pairs.map Prod.snd ∧
        ∀ row ∈ rows, (ids.projectRows layout pairs).1.assigned[row.key]? = some row.itemId := by
  induction pairs generalizing ids with
  | nil =>
    rw [SessionItemIds.projectRows]
    refine ⟨.refl given ids, fun rows hrows => ?_⟩
    obtain rfl := Except.ok.inj hrows
    exact ⟨rfl, fun row hrow => absurd hrow List.not_mem_nil⟩
  | cons pair rest ih =>
    obtain ⟨record, key⟩ := pair
    have hallocate := allocate_spec given ids key
    rw [SessionItemIds.projectRows]
    split
    · rename_i ids' e hfailed
      rw [hfailed] at hallocate
      exact ⟨hallocate.1, nofun⟩
    rename_i ids' id hallocated
    rw [hallocated] at hallocate
    have hrest := ih ids'
    split
    · rename_i ids'' e hfailed
      rw [hfailed] at hrest
      exact ⟨hallocate.1.trans hrest.1, nofun⟩
    · rename_i ids'' rows hprojected
      rw [hprojected] at hrest
      obtain ⟨hkeys, hassigned⟩ := hrest.2 rows rfl
      refine ⟨hallocate.1.trans hrest.1, fun rows' hrows => ?_⟩
      obtain rfl := Except.ok.inj hrows
      refine ⟨by rw [List.map_cons, List.map_cons, hkeys]; rfl, ?_⟩
      intro row hrow
      rcases List.mem_cons.mp hrow with rfl | hrow
      · exact hrest.1.kept key id (hallocate.2 id rfl)
      · exact hassigned row hrow

theorem projectRows_ne_duplicate (layout : ColumnLayout)
    (pairs : List (ProcessRecord × ProcessKey)) (ids : SessionItemIds) :
    (ids.projectRows layout pairs).2 ≠ .error .duplicateIdentity := by
  induction pairs generalizing ids with
  | nil =>
    rw [SessionItemIds.projectRows]
    simp
  | cons pair rest ih =>
    obtain ⟨record, key⟩ := pair
    rw [SessionItemIds.projectRows]
    split
    · rename_i ids' e hfailed
      unfold SessionItemIds.allocate at hfailed
      split at hfailed
      · cases hfailed
      split at hfailed
      · cases hfailed
        simp
      · cases hfailed
    rename_i ids' id hallocated
    have hrest := ih ids'
    split
    · rename_i ids'' e hfailed
      rwa [hfailed] at hrest
    · simp

theorem project_spec (given : List (ProcessKey × ItemId)) (ids : SessionItemIds)
    (snapshot : ProcessSnapshot) (layout : ColumnLayout) :
    Extends given ids (ids.project snapshot layout).1 ∧
      ∀ rows, (ids.project snapshot layout).2 = .ok rows →
        (rows.map Row.key).Nodup ∧
        ∀ row ∈ rows, (ids.project snapshot layout).1.assigned[row.key]? = some row.itemId := by
  rw [SessionItemIds.project]
  split
  · rename_i hnodup
    have hspec := projectRows_spec given layout
      (snapshot.records.zip (ids.identity.anchorAll (snapshot.records.map ProcessRecord.key)).2)
      { ids with identity := (ids.identity.anchorAll (snapshot.records.map ProcessRecord.key)).1 }
    refine ⟨⟨fun howned => hspec.1.owned ⟨howned.used, howned.single⟩, hspec.1.kept⟩,
      fun rows hrows => ?_⟩
    obtain ⟨hkeys, hassigned⟩ := hspec.2 rows hrows
    refine ⟨?_, hassigned⟩
    rwa [hkeys, List.map_snd_zip]
    rw [anchorAll_length, List.length_map]
  · exact ⟨.refl given ids, nofun⟩

/-! ### Retention -/

structure Retainable (ids : SessionItemIds) (rows : List Row) : Prop where
  nodup : (rows.map Row.key).Nodup
  assigned : ∀ row ∈ rows, ids.assigned[row.key]? = some row.itemId

variable {id : ItemId} {key : ProcessKey}

theorem retain_sub (ids : SessionItemIds) (rows : List Row)
    (h : (ids.retain rows).assigned[key]? = some id) : ids.assigned[key]? = some id := by
  unfold SessionItemIds.retain at h
  split at h
  · exact h
  · exact ((getElem?_select _ _ _ _).mp h).1

variable {rows : List Row}

theorem retain_kept (ids : SessionItemIds)
    (h : ids.assigned[key]? = some id) (hkey : key ∈ rows.map Row.key) :
    (ids.retain rows).assigned[key]? = some id := by
  unfold SessionItemIds.retain
  split
  · exact h
  · exact (getElem?_select _ _ _ _).mpr ⟨h, decide_eq_true hkey⟩

@[simp] theorem retain_lastId (ids : SessionItemIds) (rows : List Row) :
    (ids.retain rows).lastId = ids.lastId := by
  unfold SessionItemIds.retain
  split
  · rfl
  · rfl

theorem Owned.retain (h : Owned ids given) (rows : List Row) : Owned (ids.retain rows) given := by
  have hsub : ∀ key id, Known (ids.retain rows) given key id → Known ids given key id :=
    fun key id hknown => hknown.imp_left (retain_sub ids rows)
  constructor
  · intro key id hknown
    rw [retain_lastId]
    exact h.used key id (hsub key id hknown)
  · exact fun key key' id hkey hkey' => h.single key key' id (hsub _ _ hkey) (hsub _ _ hkey')

theorem retain_keySet (h : Retainable ids rows) :
    keySet (ids.retain rows).assigned = (rows.map Row.key).toFinset := by
  have hassigned : (rows.map Row.key).toFinset ⊆ keySet ids.assigned := by
    intro key hkey
    obtain ⟨row, hrow, rfl⟩ := List.mem_map.mp (List.mem_toFinset.mp hkey)
    exact mem_keySet.mpr ⟨row.itemId, h.assigned row hrow⟩
  unfold SessionItemIds.retain
  split
  · rename_i hlength
    refine (Finset.eq_of_subset_of_card_le hassigned ?_).symm
    rw [card_keySet, hlength, List.toFinset_card_of_nodup h.nodup, List.length_map]
  · apply Finset.ext
    intro key
    rw [mem_keySet, List.mem_toFinset]
    simp only [getElem?_select, decide_eq_true_eq]
    constructor
    · rintro ⟨id, -, hkey⟩
      exact hkey
    · intro hkey
      obtain ⟨id, hid⟩ := mem_keySet.mp (hassigned (List.mem_toFinset.mpr hkey))
      exact ⟨id, hid, hkey⟩

/-! ### Sessions -/

/-- The allocator of a session, the rows that are held, which were retained or projected since,
and every pair of a key and an ID that a row was ever given. -/
structure Session where
  ids : SessionItemIds := {}
  held : List Row := []
  given : List (ProcessKey × ItemId) := []

inductive Action where
  | project (snapshot : ProcessSnapshot) (layout : ColumnLayout)
  | retain (published : List Row)

def rowPair (row : Row) : ProcessKey × ItemId := (row.key, row.itemId)

def step (session : Session) : Action → Session
  | .project snapshot layout =>
    match session.ids.project snapshot layout with
    | (ids, .ok rows) =>
      { ids := ids
        held := session.held ++ rows
        given := session.given ++ rows.map rowPair }
    | (ids, .error _) => { session with ids := ids }
  | .retain published => { session with ids := session.ids.retain published, held := published }

/-- What is retained are held rows, of distinct keys; what a row shows does not matter. -/
def Allowed (session : Session) : Action → Prop
  | .project _ _ => True
  | .retain published =>
    (published.map Row.key).Nodup ∧ ∀ row ∈ published, rowPair row ∈ session.held.map rowPair

instance (session : Session) (action : Action) : Decidable (Allowed session action) :=
  match action with
  | .project _ _ => inferInstanceAs (Decidable True)
  | .retain _ => inferInstanceAs (Decidable (_ ∧ _))

structure Sound (session : Session) : Prop where
  owned : Owned session.ids session.given
  held : ∀ row ∈ session.held, session.ids.assigned[row.key]? = some row.itemId

theorem sound_start : Sound {} := by
  refine ⟨⟨?_, ?_⟩, fun row hrow => absurd hrow List.not_mem_nil⟩
  · rintro key id (hassigned | hgiven)
    · simp at hassigned
    · cases hgiven
  · rintro key key' id (hassigned | hgiven)
    · simp at hassigned
    · cases hgiven

theorem Owned.give (h : Owned ids given)
    (hassigned : ∀ row ∈ rows, ids.assigned[row.key]? = some row.itemId) :
    Owned ids (given ++ rows.map rowPair) := by
  have hknown : ∀ key id, Known ids (given ++ rows.map rowPair) key id → Known ids given key id := by
    rintro key id (hkey | hgiven)
    · exact Or.inl hkey
    rcases List.mem_append.mp hgiven with hold | hnew
    · exact Or.inr hold
    · obtain ⟨row, hrow, heq⟩ := List.mem_map.mp hnew
      cases heq
      exact Or.inl (hassigned row hrow)
  exact ⟨fun key id hk => h.used key id (hknown key id hk),
    fun key key' id hk hk' => h.single key key' id (hknown key id hk) (hknown key' id hk')⟩

theorem Sound.retainable {session : Session} (h : Sound session) {published : List Row}
    (hallowed : Allowed session (.retain published)) : Retainable session.ids published := by
  refine ⟨hallowed.1, fun row hrow => ?_⟩
  obtain ⟨held, hheld, heq⟩ := List.mem_map.mp (hallowed.2 row hrow)
  have hpair := h.held held hheld
  rw [rowPair, rowPair, Prod.mk.injEq] at heq
  rwa [heq.1, heq.2] at hpair

theorem sound_step (session : Session) (action : Action) (h : Sound session)
    (hallowed : Allowed session action) : Sound (step session action) := by
  cases action with
  | project snapshot layout =>
    obtain ⟨hextends, hrows⟩ := project_spec session.given session.ids snapshot layout
    rw [step]
    split
    · rename_i ids rows hprojected
      rw [hprojected] at hextends hrows
      have hassigned := (hrows rows rfl).2
      refine ⟨(hextends.owned h.owned).give hassigned, fun row hrow => ?_⟩
      rcases List.mem_append.mp hrow with hold | hnew
      · exact hextends.kept _ _ (h.held row hold)
      · exact hassigned row hnew
    · rename_i ids e hprojected
      rw [hprojected] at hextends
      exact ⟨hextends.owned h.owned, fun row hrow => hextends.kept _ _ (h.held row hrow)⟩
  | retain published =>
    have hretainable := h.retainable hallowed
    exact ⟨h.owned.retain published, fun row hrow =>
      retain_kept session.ids (hretainable.assigned row hrow) (List.mem_map_of_mem hrow)⟩

/-- The key is among those retained, if the action retains. -/
def KeepsKey (key : ProcessKey) : Action → Prop
  | .project _ _ => True
  | .retain published => key ∈ published.map Row.key

theorem assigned_step (session : Session) (action : Action)
    (h : session.ids.assigned[key]? = some id) (hkeeps : KeepsKey key action) :
    (step session action).ids.assigned[key]? = some id := by
  cases action with
  | project snapshot layout =>
    have hextends := (project_spec session.given session.ids snapshot layout).1
    rw [step]
    split
    · rename_i ids rows hprojected
      rw [hprojected] at hextends
      exact hextends.kept key id h
    · rename_i ids e hprojected
      rw [hprojected] at hextends
      exact hextends.kept key id h
  | retain published => exact retain_kept session.ids h hkeeps

theorem project_itemIds_nodup {session : Session} (h : Sound session) {snapshot : ProcessSnapshot}
    (hrows : (session.ids.project snapshot layout).2 = .ok rows) :
    (rows.map Row.itemId).Nodup := by
  obtain ⟨hextends, hspec⟩ := project_spec session.given session.ids snapshot layout
  obtain ⟨hnodup, hassigned⟩ := hspec rows hrows
  have howned := hextends.owned h.owned
  rw [List.Nodup, List.pairwise_map] at hnodup ⊢
  refine hnodup.imp_of_mem fun {a b} ha hb hne heq => ?_
  refine hne (howned.single a.key b.key a.itemId (Or.inl (hassigned a ha)) (Or.inl ?_))
  rw [heq]
  exact hassigned b hb

/-- In every session: an ID is only ever given to one key; a key keeps its ID for as long as it
is retained; the IDs of one projection are distinct; exactly the keys of the retained rows stay
assigned; a snapshot rejected for a duplicate identity changes nothing; and scans that lost
sight of what is remembered are projected as if they had not. -/
theorem item_ids_identify_instances {actions : List Action}
    (hactions : EveryStep step Allowed {} actions) :
    (∀ key key' id, (key, id) ∈ (run step {} actions).given →
      (key', id) ∈ (run step {} actions).given → key = key') ∧
    (∀ snapshot layout rows between snapshot' layout' rows' row row',
      ((run step {} actions).ids.project snapshot layout).2 = .ok rows → row ∈ rows →
      (∀ action ∈ between, KeepsKey row.key action) →
      ((run step {} (actions ++ .project snapshot layout :: between)).ids.project
        snapshot' layout').2 = .ok rows' → row' ∈ rows' →
      row'.key = row.key → row'.itemId = row.itemId) ∧
    (∀ snapshot layout rows,
      ((run step {} actions).ids.project snapshot layout).2 = .ok rows →
      (rows.map Row.itemId).Nodup) ∧
    (∀ published, Allowed (run step {} actions) (.retain published) →
      keySet ((run step {} actions).ids.retain published).assigned =
        (published.map Row.key).toFinset) ∧
    (∀ snapshot layout,
      ((run step {} actions).ids.project snapshot layout).2 = .error .duplicateIdentity →
      ((run step {} actions).ids.project snapshot layout).1 = (run step {} actions).ids) ∧
    (∀ layout fulls losts, ScansLose layout (run step {} actions).ids fulls losts →
      projectAll layout (run step {} actions).ids losts =
        projectAll layout (run step {} actions).ids fulls) := by
  have hsound := hactions.invariant sound_step sound_start
  generalize hsession : run step {} actions = session at hsound
  refine ⟨?_, ?_, ?_, ?_, ?_, ?_⟩
  · exact fun key key' id hkey hkey' =>
      hsound.owned.single key key' id (Or.inr hkey) (Or.inr hkey')
  · intro snapshot layout rows between snapshot' layout' rows' row row' hrows hrow hkeeps hrows'
      hrow' hkey
    have hspec := (project_spec session.given session.ids snapshot layout).2 rows hrows
    have hfirst : (step session (.project snapshot layout)).ids.assigned[row.key]? =
        some row.itemId := by
      have hassigned := hspec.2 row hrow
      rw [step]
      split
      · rename_i ids rows hprojected
        rwa [hprojected] at hassigned
      · rename_i ids e hprojected
        rwa [hprojected] at hassigned
    rw [run_append, run_cons, hsession] at hrows'
    have hstill := (everyStep_of_mem hkeeps (step session (.project snapshot layout))).invariant
      (P := fun s => s.ids.assigned[row.key]? = some row.itemId)
      (fun s action h hkeeps => assigned_step s action h hkeeps) hfirst
    obtain ⟨hextends, hspec'⟩ := project_spec []
      (run step (step session (.project snapshot layout)) between).ids snapshot' layout'
    have hlast := hextends.kept _ _ hstill
    have hlast' := (hspec' rows' hrows').2 row' hrow'
    rw [hkey, hlast] at hlast'
    exact (Option.some.inj hlast').symm
  · exact fun snapshot layout rows hrows => project_itemIds_nodup hsound hrows
  · exact fun published hallowed => retain_keySet (hsound.retainable hallowed)
  · intro snapshot layout hrejected
    rw [SessionItemIds.project] at hrejected ⊢
    split
    · rename_i hnodup
      rw [if_pos hnodup] at hrejected
      exact absurd hrejected (projectRows_ne_duplicate layout _ _)
    · rfl
  · exact fun layout fulls losts h => projectAll_lost h

def scannedRecord (host : Observed String) (pid : Nat) : ProcessRecord where
  key := ⟨"procfs", host, .known "boot", .known 1, .known pid, .linuxBootTicks 100⟩
  displayName := ⟨"worker", none⟩
  resident := .known 0
  cpu := .warmingUp

def scannedSnapshot (host : Observed String) (pids : List Nat) : ProcessSnapshot where
  source := "procfs"
  sampledAt := 0
  records := pids.map (scannedRecord host)
  vanished := 0
  capped := .none
  completeness := .complete
  system := .missing .notProvided

def churn : List Action :=
  [.project (scannedSnapshot (.known "host") [7, 8]) .default,
    .retain [projectRow .default (scannedRecord (.known "host") 7)
      (scannedRecord (.known "host") 7).key 1]]

theorem churn_identifies :
    keySet ((run step {} churn).ids.retain []).assigned = ∅ ∧
    ((run step {} churn).ids.project (scannedSnapshot (.missing .denied) [8, 8]) .default).1 =
      (run step {} churn).ids := by
  have hchurn := @item_ids_identify_instances churn (by decide +kernel)
  exact ⟨hchurn.2.2.2.1 [] (by decide +kernel), hchurn.2.2.2.2.1 _ _ (by decide +kernel)⟩

end Srui.Srtop.Projections

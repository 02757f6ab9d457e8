import Srui.Srtop.Columns

/-!
Server-side row projection, and the item IDs of a session.
-/

namespace Srui.Srtop.Projections

open Std Basic.Machine
open SemanticTree.Values (ItemId)
open Srtop.Sources Srtop.Columns

structure SessionIdentity where
  host : Option String := none
  boot : Option String := none
  pidNamespace : Option Nat := none
deriving DecidableEq, Repr

def anchorComponent {α : Type} (remembered : Option α) (observed : Observed α) :
    Option α × Observed α :=
  match observed with
  | .known value => (some value, .known value)
  | .missing reason =>
    match remembered with
    | some known => (some known, .known known)
    | none => (none, .missing reason)

/-- `SessionIdentity::anchor`: one record's key, anchored to the session's identity. -/
def SessionIdentity.anchor (identity : SessionIdentity) (key : ProcessKey) :
    SessionIdentity × ProcessKey :=
  let host := anchorComponent identity.host key.host
  let boot := anchorComponent identity.boot key.boot
  let pidNamespace := anchorComponent identity.pidNamespace key.pidNamespace
  (⟨host.1, boot.1, pidNamespace.1⟩,
    { key with host := host.2, boot := boot.2, pidNamespace := pidNamespace.2 })

def SessionIdentity.anchorAll (identity : SessionIdentity) :
    List ProcessKey → SessionIdentity × List ProcessKey
  | [] => (identity, [])
  | key :: rest =>
    let anchored := identity.anchor key
    let after := anchored.1.anchorAll rest
    (after.1, anchored.2 :: after.2)

structure SessionItemIds where
  assigned : ExtTreeMap ProcessKey ItemId := ∅
  identity : SessionIdentity := {}
  lastId : Nat := 0
deriving DecidableEq

inductive ProjectError where
  | duplicateIdentity
  | exhausted
deriving DecidableEq, Repr

/-- `SessionItemIds::retain`: forgets every identity that is not published. -/
def SessionItemIds.retain (ids : SessionItemIds) (published : List Row) : SessionItemIds :=
  if ids.assigned.size = published.length then ids
  else
    { ids with
      assigned := ids.assigned.filter fun key _ => decide (key ∈ published.map Row.key) }

def SessionItemIds.allocate (ids : SessionItemIds) (key : ProcessKey) :
    SessionItemIds × Except ProjectError ItemId :=
  match ids.assigned[key]? with
  | some id => (ids, .ok id)
  | none =>
    match checkedAdd ids.lastId 1 with
    | none => (ids, .error .exhausted)
    | some id => ({ ids with assigned := ids.assigned.insert key id, lastId := id }, .ok id)

def projectRow (layout : ColumnLayout) (record : ProcessRecord) (key : ProcessKey)
    (itemId : ItemId) : Row where
  key := key
  itemId := itemId
  cells := .ofRecord key record
  value := layOut (.ofRecord key record) layout
  sort := .ofRecord key record
  displayName := record.displayName

def SessionItemIds.projectRows (layout : ColumnLayout) (ids : SessionItemIds) :
    List (ProcessRecord × ProcessKey) → SessionItemIds × Except ProjectError (List Row)
  | [] => (ids, .ok [])
  | (record, key) :: rest =>
    match ids.allocate key with
    | (ids, .error e) => (ids, .error e)
    | (ids, .ok id) =>
      match ids.projectRows layout rest with
      | (ids, .error e) => (ids, .error e)
      | (ids, .ok rows) => (ids, .ok (projectRow layout record key id :: rows))

/-- `SessionItemIds::project`. A snapshot that names one instance twice is rejected before
anything of it is remembered. -/
def SessionItemIds.project (ids : SessionItemIds) (snapshot : ProcessSnapshot)
    (layout : ColumnLayout) : SessionItemIds × Except ProjectError (List Row) :=
  let anchored := ids.identity.anchorAll (snapshot.records.map ProcessRecord.key)
  if anchored.2.Nodup then
    { ids with identity := anchored.1 }.projectRows layout (snapshot.records.zip anchored.2)
  else (ids, .error .duplicateIdentity)

end Srui.Srtop.Projections

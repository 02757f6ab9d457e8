import Srui.Client.DictionaryModels

/-!
The client's models against the server's, call by call: when they come to the same, in any
order in which the client's dictionaries are walked.
-/

namespace Srui.Client.ModelEquivalence

open Std Basic.Machine Basic.FiniteMaps SemanticTree.Values
open SemanticTree.Models (Model ModelItem Mutation)
open SemanticTree.ModelIndex SemanticTree.ModelMutations SemanticTree.IndexArithmetic
open SemanticTree.ListViews (sparse sparse_indexed)
open Client.ReplicaModels (StoreError int64Max)
open Client.ModelAgreement Client.DictionaryModels

inductive ModelCall where
  | insertItems (index : Nat) (items : List ModelItem)
  | deleteItems (index count : Option Nat) (itemIds : List ItemId)
  | updateItems (index : Option Nat) (items : List ModelItem)
  | resetRange (startIndex : Nat) (items : List ModelItem) (totalCount : Option Nat)
  | evictFarthestOutside (keepStart keepEnd count : Nat)

namespace ModelCall

def server (m : Model) : ModelCall → Mutation Model
  | .insertItems index items => SemanticTree.Models.insertItems m index items
  | .deleteItems index count itemIds => SemanticTree.Models.deleteItems m index count itemIds
  | .updateItems index items => SemanticTree.Models.updateItems m index items
  | .resetRange startIndex items totalCount =>
    SemanticTree.Models.resetRange m startIndex items totalCount
  | .evictFarthestOutside keepStart keepEnd count =>
    (SemanticTree.Models.evictFarthestOutside m keepStart keepEnd count, .ok ())

def client (walk : Walk) (m : Model) : ModelCall → Outcome StoreError Model
  | .insertItems index items => walk.insertItems m index items
  | .deleteItems index count itemIds => walk.deleteItems m index count itemIds
  | .updateItems index items => ReplicaModels.updateItems m index items
  | .resetRange startIndex items totalCount =>
    ReplicaModels.resetRange m startIndex items totalCount
  | .evictFarthestOutside keepStart keepEnd count =>
    .ok (walk.evictFarthestOutside m keepStart keepEnd count)

def Typed : ModelCall → Prop
  | .insertItems index _ => index ≤ u64Max
  | .deleteItems index count _ => index.getD 0 ≤ u64Max ∧ count.getD 0 ≤ u64Max
  | .updateItems index _ => index.getD 0 ≤ u64Max
  | .resetRange startIndex _ totalCount => startIndex ≤ u64Max ∧ totalCount.getD 0 ≤ u64Max
  | .evictFarthestOutside keepStart keepEnd _ => keepStart ≤ u64Max ∧ keepEnd ≤ u64Max

def batch : ModelCall → Nat
  | .insertItems _ items => items.length
  | .updateItems _ items => items.length
  | .resetRange _ items _ => items.length
  | .deleteItems _ _ _ => 0
  | .evictFarthestOutside _ _ _ => 0

/-- The end of a range that a reset gets to compute fits 64 bits. -/
def EndFits (m : Model) : ModelCall → Prop
  | .resetRange startIndex items totalCount =>
    startIndex ≤ announcedCount m totalCount → startIndex + items.length ≤ u64Max
  | _ => True

end ModelCall

/-- Both succeed, with the same length and the same items at the same positions, or both report
an error of the same kind. -/
def Same (client : Outcome StoreError Model) (server : Mutation Model) : Prop :=
  (∃ after, client = .ok after ∧ server.2 = .ok () ∧ after.itemCount = server.1.itemCount ∧
      after.items = server.1.items) ∨
    ∃ e e', client = err e ∧ server.2 = err e' ∧ SameKind e e'

variable {m : Model}

theorem same_iff {client : Outcome StoreError Model} {server : Mutation Model}
    (h : Follows client server) : Same client server ↔ NoOverflow server := by
  obtain ⟨after, result⟩ := server
  rcases result with fault | ⟨⟩
  · obtain ⟨fault', rfl, hsame⟩ := h
    cases hsame with
    | error kind => exact iff_of_true (Or.inr ⟨_, _, rfl, rfl, kind⟩) nofun
    | panicked =>
      refine iff_of_false ?_ (not_not.mpr rfl)
      rintro (⟨after, hclient, -⟩ | ⟨e, e', hclient, -⟩) <;> cases hclient
  · exact iff_of_true (Or.inl ⟨after, h, rfl, rfl, rfl⟩) nofun

theorem below_of_indexed (h : Indexed m)
    (hitems : ∀ (i : Nat) (a : ModelItem), m.items[i]? = some a → i < m.itemCount) :
    Below m.itemCount m := by
  refine ⟨hitems, ?_⟩
  intro k i hi
  obtain ⟨a, ha, -⟩ := (h k i).mp hi
  exact hitems i a ha

/-- Any call on a model of at most `Int64.max` items ends alike on both sides. -/
theorem client_follows (walk : Walk) (h : Indexed m) (hbelow : Below m.itemCount m)
    {call : ModelCall} (htyped : call.Typed) (hfits : m.itemCount + call.batch ≤ int64Max) :
    Follows (call.client walk m) (call.server m) := by
  have hcount : m.itemCount ≤ int64Max := Nat.le_of_add_right_le hfits
  have hlimit : int64Max ≤ u64Max := by decide
  cases call with
  | insertItems index items =>
    rw [ModelCall.client, insertItems_walk walk h hbelow hfits]
    exact insertItems_follows m index items
  | deleteItems index count itemIds =>
    rw [ModelCall.client, deleteItems_walk walk h hbelow (hcount.trans hlimit)]
    exact deleteItems_of_range (deleteRange_follows hcount _ _)
  | updateItems index items => exact updateItems_follows m index items
  | resetRange startIndex items totalCount =>
    exact resetRange_follows m startIndex items totalCount
  | evictFarthestOutside keepStart keepEnd count =>
    rw [ModelCall.client, evictFarthestOutside_walk,
      evictFarthestOutside_eq m htyped.1 htyped.2]
    rfl

theorem deleteItems_fits (hbelow : Below m.itemCount m) (hcount : m.itemCount ≤ int64Max)
    (index count : Option Nat) (itemIds : List ItemId) :
    NoOverflow (SemanticTree.Models.deleteItems m index count itemIds) := by
  have hlimit : int64Max < u64Max := by decide
  rw [SemanticTree.Models.deleteItems]
  split
  · simp
  split
  · exact deleteByIds_inRange (hcount.trans hlimit.le) hbelow itemIds
  split
  swap
  · simp
  by_cases haccepted : index.getD 0 ≤ m.itemCount ∧
      saturatingAdd (index.getD 0) (count.getD 0) ≤ m.itemCount
  · obtain ⟨hstart, hend⟩ := haccepted
    apply ((deleteByRange_inRange hstart hend).mpr _).1
    -- The end did not saturate, as the model ends below the greatest length.
    have hlength : i64Max = int64Max := rfl
    rw [saturatingAdd] at hend
    omega
  · rw [SemanticTree.Models.deleteByRange, if_pos]
    · simp
    · omega

theorem server_fits (hbelow : Below m.itemCount m) {call : ModelCall} (htyped : call.Typed)
    (hfits : m.itemCount + call.batch ≤ int64Max) :
    NoOverflow (call.server m) ↔ call.EndFits m := by
  have hcount : m.itemCount ≤ int64Max := Nat.le_of_add_right_le hfits
  have hlimit : int64Max < u64Max := by decide
  cases call with
  | insertItems index items =>
    refine iff_of_true ((insertItems_inRange hbelow (by omega)).mpr ?_) trivial
    intro _ _
    exact hfits.trans hlimit.le
  | deleteItems index count itemIds =>
    exact iff_of_true (deleteItems_fits hbelow hcount index count itemIds) trivial
  | updateItems index items =>
    refine iff_of_true ?_ trivial
    rcases index with - | base
    · exact updateById_inRange m items
    · exact updateAt_inRange (by omega) htyped
  | resetRange startIndex items totalCount => exact resetRange_inRange
  | evictFarthestOutside keepStart keepEnd count => exact iff_of_true nofun trivial

/-- On a model whose items lie below its length, every call comes to the same on both sides, unless
it is a reset whose range ends beyond 64 bits: there the client traps. -/
theorem models_same_iff (walk : Walk) (hindexed : Indexed m)
    (hitems : ∀ (i : Nat) (a : ModelItem), m.items[i]? = some a → i < m.itemCount)
    (call : ModelCall) (htyped : call.Typed) (hfits : m.itemCount + call.batch ≤ int64Max) :
    Same (call.client walk m) (call.server m) ↔ call.EndFits m := by
  have hbelow : Below m.itemCount m := below_of_indexed hindexed hitems
  rw [same_iff (client_follows walk hindexed hbelow htyped hfits)]
  exact server_fits hbelow htyped hfits

def backwards : Walk where
  entries items := items.toList.reverse
  perm _ := List.reverse_perm _

theorem sparse_same : Same
    ((ModelCall.insertItems 1 [⟨11, .null, ∅⟩]).client backwards sparse)
    ((ModelCall.insertItems 1 [⟨11, .null, ∅⟩]).server sparse) := by
  have hitems : ∀ (i : Nat) (a : ModelItem), sparse.items[i]? = some a → i < sparse.itemCount :=
    forall_of_toList (P := fun i _ => i < sparse.itemCount) (by decide +kernel)
  have htyped : 1 ≤ u64Max := by decide
  exact (models_same_iff backwards sparse_indexed hitems (.insertItems 1 [⟨11, .null, ∅⟩]) htyped
    (by decide)).mpr trivial

def lastReset : ModelCall := .resetRange u64Max [⟨10, .null, ∅⟩] (some u64Max)

/-- The reset meets every condition on its model and arguments, and the client traps. -/
theorem last_reset_differs :
    Indexed (Model.new 1 ⟨0, 1⟩ 3) ∧
    (∀ (i : Nat) (a : ModelItem), (Model.new 1 ⟨0, 1⟩ 3).items[i]? = some a → i < 3) ∧
    lastReset.Typed ∧ (Model.new 1 ⟨0, 1⟩ 3).itemCount + lastReset.batch ≤ int64Max ∧
    ¬Same (lastReset.client backwards (Model.new 1 ⟨0, 1⟩ 3))
      (lastReset.server (Model.new 1 ⟨0, 1⟩ 3)) := by
  refine ⟨indexed_new _ _ _, ?_, ?_, ?_, ?_⟩
  · intro i a hi
    simp [SemanticTree.Models.Model.new] at hi
  · exact ⟨by decide, by decide⟩
  · decide
  · have htraps : lastReset.client backwards (SemanticTree.Models.Model.new 1 ⟨0, 1⟩ 3) =
        .error .panicked := by decide +kernel
    rintro (⟨after, hclient, -⟩ | ⟨e, e', hclient, -⟩)
    all_goals
      rw [htraps] at hclient
      cases hclient

end Srui.Client.ModelEquivalence

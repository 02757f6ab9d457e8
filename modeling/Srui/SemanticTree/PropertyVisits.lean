import Srui.SemanticTree.Wire

/-!
What the order decides in which the properties of an item are visited: which of
several violations a call reports, and nothing else.
-/

namespace Srui.SemanticTree.PropertyVisits

open Basic.Machine SemanticTree.Values SemanticTree.Limits SemanticTree.Models SemanticTree.Stores
open SemanticTree.Operations SemanticTree.Transactions

/-- `Operation::apply` and `Operation::apply_owned` on items whose properties are
visited in the order `visit`. -/
def applyIn (visit : Visit) (op : Operation) (s : SemanticStore) : Mutation SemanticStore :=
  match op with
  | .modelInsert id index items =>
    modelInsertChecked (validateBatchIn visit s.limits items) s id index items
  | .modelUpdate id index items =>
    modelUpdateChecked (validateBatchIn visit s.limits items) s id index items
  | .modelResetRange id startIndex items totalCount =>
    modelResetRangeChecked (validateBatchIn visit s.limits items) s id startIndex items totalCount
  | op => apply op s

theorem applyIn_ascending : applyIn .ascending = apply := by
  funext op s
  cases op <;> rfl

/-! ### Acceptance does not depend on the order -/

variable {limits : StoreLimits}

theorem validatePropertiesInner_ok {properties : List (PropertyRef × Value)} {depth : Nat} :
    validatePropertiesInner limits properties depth = .ok () ↔
      ∀ entry ∈ properties, validateValueInner limits entry.2 depth = .ok () := by
  induction properties with
  | nil => simp [validatePropertiesInner]
  | cons entry rest ih =>
    rw [validatePropertiesInner, List.forall_mem_cons, ← ih]
    cases validateValueInner limits entry.2 depth with
    | error e => simp
    | ok _ => simp

theorem validateItemIn_ok (visit visit' : Visit) (item : ModelItem) :
    validateItemIn visit limits item = .ok () ↔ validateItemIn visit' limits item = .ok () := by
  have hperm := (visit.perm item).trans (visit'.perm item).symm
  unfold validateItemIn
  cases validateValue limits item.value with
  | error e => rfl
  | ok _ =>
    simp only [validatePropertiesInner_ok]
    exact forall_congr' fun entry => imp_congr_left hperm.mem_iff

theorem validateItemsIn_ok (visit visit' : Visit) (items : List ModelItem) :
    validateItemsIn visit limits items = .ok () ↔ validateItemsIn visit' limits items = .ok () := by
  induction items with
  | nil => rfl
  | cons item rest ih =>
    have hitem := @validateItemIn_ok limits visit visit' item
    unfold validateItemsIn
    cases h : validateItemIn visit limits item <;> cases h' : validateItemIn visit' limits item <;>
      simp_all

theorem validateBatchIn_ok (visit visit' : Visit) (items : List ModelItem) :
    validateBatchIn visit limits items = .ok () ↔ validateBatchIn visit' limits items = .ok () := by
  unfold validateBatchIn
  cases validateModelItemsBatch limits items.length with
  | error e => rfl
  | ok _ => exact validateItemsIn_ok visit visit' items

/-! ### Ends of a call that differ in the reported violation at most -/

/-- The results are the same, or both report the operation at one index. -/
inductive SameEnd {α : Type} : Outcome TxnError α → Outcome TxnError α → Prop where
  | same (r : Outcome TxnError α) : SameEnd r r
  | opFailed (opIndex : Nat) (source source' : StoreError) :
      SameEnd (err (.opFailed opIndex source)) (err (.opFailed opIndex source'))

/-- An operation in two orders: one mutation, or two refusals that leave the store alone. -/
theorem applyIn_agrees (visit visit' : Visit) (op : Operation) (s : SemanticStore) :
    applyIn visit op s = applyIn visit' op s ∨
      ∃ e e', applyIn visit op s = (s, err e) ∧ applyIn visit' op s = (s, err e') := by
  have hchecked : ∀ items, validateBatchIn visit s.limits items =
        validateBatchIn visit' s.limits items ∨
      ∃ e e', validateBatchIn visit s.limits items = .error e ∧
        validateBatchIn visit' s.limits items = .error e' := by
    intro items
    have hok := @validateBatchIn_ok s.limits visit visit' items
    cases h : validateBatchIn visit s.limits items <;>
      cases h' : validateBatchIn visit' s.limits items <;> simp_all
  cases op with
  | modelInsert id index items | modelUpdate id index items
  | modelResetRange id startIndex items totalCount =>
    rcases hchecked items with h | ⟨e, e', h, h'⟩
    · exact .inl (by rw [applyIn, applyIn, h])
    · exact .inr ⟨e, e', by rw [applyIn, h]; rfl, by rw [applyIn, h']; rfl⟩
  | _ => exact .inl rfl

theorem stage_agrees (visit visit' : Visit) (s : SemanticStore) (opIndex : Nat)
    (ops : List Operation) :
    SameEnd (stage (applyIn visit) s opIndex ops) (stage (applyIn visit') s opIndex ops) := by
  induction ops generalizing s opIndex with
  | nil => exact .same _
  | cons op rest ih =>
    rw [stage, stage]
    rcases applyIn_agrees visit visit' op s with h | ⟨e, e', h, h'⟩
    · rw [h]
      split
      · exact .same _
      · exact ih _ _
    · rw [h, h']
      exact .opFailed opIndex e e'

theorem applyStagedWith_agrees (visit visit' : Visit) (s : SemanticStore) (ops : List Operation)
    (newRevision : Revision) :
    (applyStagedWith (applyIn visit) s ops newRevision).1 =
        (applyStagedWith (applyIn visit') s ops newRevision).1 ∧
      SameEnd (applyStagedWith (applyIn visit) s ops newRevision).2
        (applyStagedWith (applyIn visit') s ops newRevision).2 := by
  unfold applyStagedWith
  split
  · exact ⟨rfl, .same _⟩
  have hstage := stage_agrees visit visit' s 0 ops
  generalize stage (applyIn visit) s 0 ops = staged at hstage
  generalize stage (applyIn visit') s 0 ops = staged' at hstage
  cases hstage with
  | same r => exact ⟨rfl, .same _⟩
  | opFailed opIndex source source' => exact ⟨rfl, .opFailed opIndex source source'⟩

end Srui.SemanticTree.PropertyVisits

import Srui.SemanticTree.OperationEffects

/-!
The reverse lookup of every model over whole runs of operations.
-/

namespace Srui.SemanticTree.ModelInvariants

open Std Basic.Machine Basic.FiniteMaps Basic.InverseIndex Basic.Runs SemanticTree.Values
open SemanticTree.Limits SemanticTree.Models SemanticTree.Stores SemanticTree.Operations
open SemanticTree.ModelIndex SemanticTree.ModelMutations SemanticTree.OperationEffects

def ModelsIndexed (s : SemanticStore) : Prop :=
  ∀ (id : ModelId) (m : Model), s.models[id]? = some m → Indexed m

theorem modelsIndexed_empty (limits : StoreLimits) (revision : Revision) :
    ModelsIndexed (SemanticStore.withLimitsAndRevision limits revision) := by
  intro id m hm
  simp [SemanticStore.withLimitsAndRevision] at hm

theorem resetCached_indexed {m : Model} (h : Indexed m) (limits : StoreLimits)
    (startIndex : Nat) (items : List ModelItem) (totalCount : Option Nat)
    (hok : NoOverflow (resetCached limits m startIndex items totalCount)) :
    Indexed (resetCached limits m startIndex items totalCount).1 := by
  unfold resetCached at hok ⊢
  dsimp only at hok ⊢
  generalize hroom : (if projectedCached m startIndex (saturatingAdd startIndex items.length)
    items.length > limits.maxCachedItemsPerModel then _ else m) = room at hok ⊢
  have hindexed : Indexed room := by
    rw [← hroom]
    split
    · exact evictFarthestOutside_indexed h _ _ _
    · exact h
  split
  · exact hindexed
  · rename_i hfits
    rw [if_neg hfits] at hok
    exact (resetRange_spec hindexed startIndex items totalCount hok).1

theorem mutationOf_indexed {limits : StoreLimits} {op : Operation} {id : ModelId}
    {f : Model → Mutation Model} (hop : mutationOf limits op = some (id, f)) {m : Model}
    (h : Indexed m) (hok : NoOverflow (f m)) : Indexed (f m).1 := by
  cases op with
  | modelInsert id' index items =>
    obtain ⟨rfl, rfl⟩ := Prod.mk.inj (Option.some.inj hop)
    dsimp only at hok ⊢
    split
    · exact h
    · rename_i hfits
      rw [if_neg hfits] at hok
      exact (insertItems_spec h index items hok).1
  | modelDelete id' index count itemIds =>
    obtain ⟨rfl, rfl⟩ := Prod.mk.inj (Option.some.inj hop)
    exact deleteItems_indexed h index count itemIds hok
  | modelUpdate id' index items =>
    obtain ⟨rfl, rfl⟩ := Prod.mk.inj (Option.some.inj hop)
    exact updateItems_indexed h index items hok
  | modelResetRange id' startIndex items totalCount =>
    obtain ⟨rfl, rfl⟩ := Prod.mk.inj (Option.some.inj hop)
    exact resetCached_indexed h limits startIndex items totalCount hok
  | _ => simp [mutationOf] at hop

theorem apply_modelsIndexed {s : SemanticStore} {op : Operation} (h : ModelsIndexed s)
    (hok : NoOverflow (apply op s)) : ModelsIndexed (apply op s).1 := by
  rcases apply_modelEffect s op with ⟨hsame, -⟩ | ⟨id, f, e, -, heq⟩ |
    ⟨id, modelType, itemCount, -, -, -, heq⟩ | ⟨id, f, model, hop, hmodel, heq⟩
  · intro id m hm
    rw [hsame.models] at hm
    exact h id m hm
  · rw [heq]
    exact h
  · rw [heq]
    intro id' m hm
    change (s.models.insert id (Model.new id modelType itemCount))[id']? = some m at hm
    rw [getElem?_put] at hm
    split at hm
    · rw [← Option.some.inj hm]
      exact indexed_new id modelType itemCount
    · exact h id' m hm
  · rw [heq] at hok ⊢
    intro id' m hm
    change (s.models.insert id (f model).1)[id']? = some m at hm
    rw [getElem?_put] at hm
    split at hm
    · rw [← Option.some.inj hm]
      exact mutationOf_indexed hop (h id model hmodel) hok
    · exact h id' m hm

theorem run_modelsIndexed {limits : StoreLimits} {revision : Revision} {ops : List Operation}
    (h : EveryStep applyStep (fun s op => NoOverflow (apply op s))
      (SemanticStore.withLimitsAndRevision limits revision) ops) :
    ModelsIndexed (run applyStep (SemanticStore.withLimitsAndRevision limits revision) ops) :=
  h.invariant (fun _ _ hs hok => apply_modelsIndexed hs hok) (modelsIndexed_empty limits revision)

/-- In every store reached without an overflowing index computation, failed
operations included, the two maps of every model are mutually inverse; so no
identity is cached twice and looking an item up by identity never misses. -/
theorem models_mutually_inverse (limits : StoreLimits) (revision : Revision)
    (ops : List Operation)
    (hrun : EveryStep applyStep (fun s op => NoOverflow (apply op s))
      (SemanticStore.withLimitsAndRevision limits revision) ops)
    (id : ModelId) (m : Model)
    (hm : (run applyStep (SemanticStore.withLimitsAndRevision limits revision) ops).models[id]? =
      some m) :
    (∀ (k : ItemId) (i : Nat), m.idToIndex[k]? = some i ↔
      ∃ item, m.items[i]? = some item ∧ item.itemId = k) ∧
    (∀ (i j : Nat) (a b : ModelItem), m.items[i]? = some a → m.items[j]? = some b →
      a.itemId = b.itemId → i = j) ∧
    ∀ (i : Nat) (item : ModelItem), m.items[i]? = some item →
      getItemById m item.itemId = some item := by
  have h : Indexed m := run_modelsIndexed hrun id m hm
  refine ⟨h, ?_, ?_⟩
  · intro i j a b ha hb hid
    exact Inverse.position_unique h ha hb hid
  · intro i item hitem
    exact Inverse.lookup_through h hitem

/-- Two items swap places by one positional update, then an insertion of an
identity that is already cached fails. -/
def swapRun : List Operation :=
  [.createModel 1 ⟨0, 1⟩ 3,
    .modelResetRange 1 0 [⟨10, .null, ∅⟩, ⟨11, .null, ∅⟩] none,
    .modelUpdate 1 (some 0) [⟨11, .null, ∅⟩, ⟨10, .null, ∅⟩],
    .modelInsert 1 0 [⟨11, .null, ∅⟩]]

theorem swapRun_mutually_inverse :
    (run applyStep (SemanticStore.withLimits StoreLimits.default) swapRun).models[1]?.isSome ∧
      ∀ (m : Model),
        (run applyStep (SemanticStore.withLimits StoreLimits.default) swapRun).models[1]? = some m →
          ∀ (i : Nat) (item : ModelItem), m.items[i]? = some item →
            getItemById m item.itemId = some item := by
  refine ⟨by decide +kernel, ?_⟩
  intro m hm
  refine (models_mutually_inverse StoreLimits.default 0 swapRun ?_ 1 m hm).2.2
  exact ⟨by decide +kernel, by decide +kernel, by decide +kernel, by decide +kernel, trivial⟩

end Srui.SemanticTree.ModelInvariants
